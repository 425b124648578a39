import RmcatNs3.Razor.PacerQueue

/-!
# The invariant of the pacer queue

The queue stands for one list of packets in the order of arrival, some of them
sent already. The cache, the list and the packets that are allocated all
follow from it; `Inv` adds what is true of the totals and of the oldest packet.
Each operation has one lemma that says what it does to the list.
-/

namespace Razor

namespace PacerQueue

/-- A packet and its address. -/
structure Queued where
  addr : Addr
  event : PacketEvent
  deriving DecidableEq

/-- The packets that have not been sent. -/
def unsent (L : List Queued) : List Queued := L.filter fun p => !p.event.sent

/-- The packets from the first on that has not been sent. -/
def dropSent (L : List Queued) : List Queued := L.dropWhile fun p => p.event.sent

/-- The bytes of some packets. -/
def bytes (L : List Queued) : Nat := (L.map fun p => p.event.size).sum

/-- The time stamp of the oldest packet, or `-1`. -/
def oldest : List Queued → Int
  | [] => -1
  | p :: _ => p.event.queTs

theorem bytes_perm {L M : List Queued} (h : L.Perm M) : bytes L = bytes M :=
  (h.map _).sum_nat

theorem mem_unsent {L : List Queued} {p : Queued} :
    p ∈ unsent L ↔ p ∈ L ∧ p.event.sent = false := by
  simp [unsent]

@[simp] theorem unsent_append (L M : List Queued) :
    unsent (L ++ M) = unsent L ++ unsent M :=
  List.filter_append ..

theorem unsent_cons_of_sent {p : Queued} (h : p.event.sent = true) (L : List Queued) :
    unsent (p :: L) = unsent L :=
  List.filter_cons_of_neg (by simp [h])

theorem unsent_cons_of_unsent {p : Queued} (h : p.event.sent = false)
    (L : List Queued) : unsent (p :: L) = p :: unsent L :=
  List.filter_cons_of_pos (by simp [h])

theorem dropSent_cons_of_sent {p : Queued} (h : p.event.sent = true) (L : List Queued) :
    dropSent (p :: L) = dropSent L :=
  List.dropWhile_cons_of_pos (p := fun p : Queued => p.event.sent) h

theorem dropSent_cons_of_unsent {p : Queued} (h : p.event.sent = false)
    (L : List Queued) : dropSent (p :: L) = p :: L :=
  List.dropWhile_cons_of_neg (p := fun p : Queued => p.event.sent) (by simp [h])

/-- Only sent packets are dropped. -/
@[simp] theorem unsent_dropSent (L : List Queued) : unsent (dropSent L) = unsent L := by
  induction L with
  | nil => rfl
  | cons p rest ih =>
      cases hp : p.event.sent with
      | true => rw [dropSent_cons_of_sent hp, unsent_cons_of_sent hp, ih]
      | false => rw [dropSent_cons_of_unsent hp]

theorem dropSent_head {L : List Queued} {p : Queued} (h : (dropSent L).head? = some p) :
    p.event.sent = false := by
  have hhead := List.head?_dropWhile_not (fun p : Queued => p.event.sent) L
  rw [dropSent] at h
  simpa [h] using hhead

/-! ## One list for both structures -/

/-- The cache, the list and the allocated packets are those of `L`. -/
structure Holds (que : PacerQueue) (L : List Queued) : Prop where
  l : que.l = L.map (·.addr)
  nodup : (L.map (·.addr)).Nodup
  packets : ∀ p : Queued, que.packets p.addr = some p.event ↔ p ∈ L
  cache : ∀ b, b ∈ que.cache ↔ ∃ p ∈ L, (p.event.seq, p.addr) = b

variable {que : PacerQueue} {L : List Queued} {p : Queued}

theorem Holds.packet (h : Holds que L) (hp : p ∈ L) :
    que.packets p.addr = some p.event :=
  (h.packets p).mpr hp

theorem Holds.binding (h : Holds que L) (hp : p ∈ L) :
    (p.event.seq, p.addr) ∈ que.cache :=
  (h.cache _).mpr ⟨p, hp, rfl⟩

/-- One packet for each sequence number. -/
theorem Holds.eq_of_seq (h : Holds que L) {q : Queued} (hp : p ∈ L) (hq : q ∈ L)
    (heq : p.event.seq = q.event.seq) : p = q := by
  have hb := SortedMap.eq_of_mem (h.binding hp) (h.binding hq) heq
  have haddr : p.addr = q.addr := congrArg Prod.snd hb
  have hev := h.packet hp
  rw [haddr, h.packet hq, Option.some.injEq] at hev
  cases p
  cases q
  simp_all

theorem Holds.find?_some (h : Holds que L) (hp : p ∈ L) :
    que.cache.find? p.event.seq = some (p.event.seq, p.addr) :=
  SortedMap.find?_eq_some_iff.mpr ⟨h.binding hp, rfl⟩

theorem Holds.find?_none (h : Holds que L) {seq : PacketSeq}
    (hne : ∀ p ∈ L, p.event.seq ≠ seq) : que.cache.find? seq = none := by
  rw [SortedMap.find?_eq_none_iff]
  intro b hb
  obtain ⟨p, hp, rfl⟩ := (h.cache b).mp hb
  exact hne p hp

theorem Holds.cache_nil (h : Holds que L) : que.cache.toList = [] ↔ L = [] := by
  constructor
  · intro hnil
    refine List.eq_nil_iff_forall_not_mem.mpr fun p hp => ?_
    have hb := SortedMap.mem_def.mp (h.binding hp)
    rw [hnil] at hb
    cases hb
  · rintro rfl
    refine List.eq_nil_iff_forall_not_mem.mpr fun b hb => ?_
    obtain ⟨p, hp, _⟩ := (h.cache b).mp hb
    cases hp

theorem Holds.cache_size (h : Holds que L) : que.cache.size = 0 ↔ L = [] := by
  rw [SortedMap.size, List.length_eq_zero_iff, h.cache_nil]

theorem Holds.seq_nodup (h : Holds que L) : (L.map (·.event.seq)).Nodup := by
  have hL : L.Nodup := h.nodup.of_map _
  exact hL.map_on fun p hp q hq heq => h.eq_of_seq hp hq heq

/-- There are not more packets than sequence numbers. -/
theorem Holds.length_le (h : Holds que L) : L.length ≤ 2 ^ 32 := by
  have hcard := h.seq_nodup.length_le_card
  rwa [List.length_map, Fintype.card_fin] at hcard

/-! ## Membership around one packet -/

theorem mem_around {pre post : List Queued} {r : Queued}
    (hnodup : ((pre ++ r :: post).map (·.addr)).Nodup) (q : Queued) :
    q ∈ pre ++ r :: post ↔ q = r ∨ q.addr ≠ r.addr ∧ q ∈ pre ++ post := by
  have hout : ∀ q ∈ pre ++ post, q.addr ≠ r.addr := by
    rw [List.map_append, List.map_cons, List.nodup_middle, List.nodup_cons] at hnodup
    intro q hq heq
    rw [← heq, ← List.map_append] at hnodup
    exact hnodup.1 (List.mem_map_of_mem hq)
  constructor
  · intro hq
    rw [List.mem_append, List.mem_cons] at hq
    rcases hq with hq | rfl | hq
    · exact .inr ⟨hout q (List.mem_append_left _ hq), List.mem_append_left _ hq⟩
    · exact .inl rfl
    · exact .inr ⟨hout q (List.mem_append_right _ hq), List.mem_append_right _ hq⟩
  · rintro (rfl | ⟨_, hq⟩)
    · simp
    · rw [List.mem_append] at hq ⊢
      exact hq.imp_right (List.mem_cons_of_mem _)

theorem setPacket_packets (que : PacerQueue) (a b : Addr) (ev : Option PacketEvent) :
    (que.setPacket a ev).packets b = if b = a then ev else que.packets b := rfl

/-! ## One list after each update -/

/-- A packet with a new sequence number joins at the end. -/
theorem Holds.push (h : Holds que L) {a : Addr} {ev : PacketEvent}
    (ha : que.packets a = none) (hne : ∀ p ∈ L, p.event.seq ≠ ev.seq) :
    Holds { que.setPacket a (some ev) with
      cache := que.cache.insert ev.seq a
      l := que.l ++ [a] } (L ++ [⟨a, ev⟩]) := by
  have hfresh : ∀ p ∈ L, p.addr ≠ a := by
    rintro p hp rfl
    exact absurd (ha.symm.trans (h.packet hp)) nofun
  constructor
  · rw [h.l, List.map_append]
    rfl
  · rw [List.map_append, List.nodup_append]
    refine ⟨h.nodup, List.nodup_singleton a, ?_⟩
    intro b hb c hc
    obtain ⟨p, hp, rfl⟩ := List.mem_map.mp hb
    obtain rfl := List.mem_singleton.mp hc
    exact hfresh p hp
  · intro p
    rw [List.mem_append, List.mem_singleton]
    show (que.setPacket a (some ev)).packets p.addr = _ ↔ _
    rw [setPacket_packets]
    by_cases hp : p.addr = a
    · rw [if_pos hp, Option.some.injEq]
      constructor
      · rintro rfl
        exact .inr (congrArg (Queued.mk · p.event) hp)
      · rintro (hmem | rfl)
        · exact absurd hp (hfresh p hmem)
        · rfl
    · rw [if_neg hp, h.packets]
      constructor
      · exact .inl
      · rintro (hmem | rfl)
        · exact hmem
        · exact absurd rfl hp
  · intro b
    show b ∈ que.cache.insert ev.seq a ↔ _
    rw [SortedMap.mem_insert, h.cache]
    simp only [h.find?_none hne, true_and, List.mem_append, List.mem_singleton]
    constructor
    · rintro (⟨p, hp, rfl⟩ | rfl)
      · exact ⟨p, .inl hp, rfl⟩
      · exact ⟨_, .inr rfl, rfl⟩
    · rintro ⟨p, hp | rfl, rfl⟩
      · exact .inl ⟨p, hp, rfl⟩
      · exact .inr rfl

/-- A packet is changed where it is. -/
theorem Holds.setPacket {pre post : List Queued} (h : Holds que (pre ++ p :: post))
    {ev : PacketEvent} (hseq : ev.seq = p.event.seq) :
    Holds (que.setPacket p.addr (some ev)) (pre ++ ⟨p.addr, ev⟩ :: post) := by
  have haddrs : (pre ++ ⟨p.addr, ev⟩ :: post).map (·.addr)
      = (pre ++ p :: post).map (·.addr) := by
    simp
  have hnodup : ((pre ++ ⟨p.addr, ev⟩ :: post).map (·.addr)).Nodup := by
    rw [haddrs]
    exact h.nodup
  constructor
  · rw [haddrs]
    exact h.l
  · exact hnodup
  · intro q
    rw [mem_around hnodup, setPacket_packets]
    by_cases hq : q.addr = p.addr
    · rw [if_pos hq, Option.some.injEq]
      constructor
      · rintro rfl
        exact .inl (congrArg (Queued.mk · q.event) hq)
      · rintro (rfl | ⟨hne, _⟩)
        · rfl
        · exact absurd hq hne
    · rw [if_neg hq, h.packets, mem_around h.nodup]
      refine or_congr_left ?_
      constructor
      · rintro rfl
        exact absurd rfl hq
      · rintro rfl
        exact absurd rfl hq
  · intro b
    rw [show (que.setPacket p.addr (some ev)).cache = que.cache from rfl, h.cache]
    simp only [List.mem_append, List.mem_cons]
    constructor
    · rintro ⟨q, hq | rfl | hq, rfl⟩
      · exact ⟨q, .inl hq, rfl⟩
      · exact ⟨_, .inr (.inl rfl), by rw [hseq]⟩
      · exact ⟨q, .inr (.inr hq), rfl⟩
    · rintro ⟨q, hq | rfl | hq, rfl⟩
      · exact ⟨q, .inl hq, rfl⟩
      · exact ⟨p, .inr (.inl rfl), by rw [hseq]⟩
      · exact ⟨q, .inr (.inr hq), rfl⟩

/-- The first packet leaves. -/
theorem Holds.pop (h : Holds que (p :: L)) :
    Holds { { que with l := L.map Queued.addr }.setPacket p.addr none with
      cache := que.cache.erase p.event.seq } L := by
  have hout := (List.nodup_cons.mp h.nodup).1
  refine ⟨rfl, (List.nodup_cons.mp h.nodup).2, ?_, ?_⟩
  · intro q
    show ({ que with l := L.map Queued.addr }.setPacket p.addr none).packets q.addr = _ ↔ _
    rw [setPacket_packets]
    by_cases hq : q.addr = p.addr
    · rw [if_pos hq]
      refine ⟨nofun, fun hmem => absurd (List.mem_map.mpr ⟨q, hmem, hq⟩) hout⟩
    · rw [if_neg hq, h.packets, List.mem_cons]
      refine ⟨fun hmem => hmem.resolve_left ?_, .inr⟩
      rintro rfl
      exact hq rfl
  · intro b
    rw [SortedMap.mem_erase, h.cache]
    constructor
    · rintro ⟨⟨q, hq, rfl⟩, hne⟩
      rcases List.mem_cons.mp hq with rfl | hq
      · exact absurd rfl hne
      · exact ⟨q, hq, rfl⟩
    · rintro ⟨q, hq, rfl⟩
      refine ⟨⟨q, List.mem_cons_of_mem _ hq, rfl⟩, ?_⟩
      intro heq
      have := h.eq_of_seq (List.mem_cons_of_mem _ hq) List.mem_cons_self heq
      exact hout (this ▸ List.mem_map_of_mem hq)

/-- **The loop of `pacer_queue_final`** drops the sent packets in front, and
changes no total. -/
theorem Holds.finalLoop (h : Holds que L) :
    ∃ que', finalLoop que.l que = some que' ∧ Holds que' (dropSent L) ∧
      que'.totalSize = que.totalSize := by
  rw [h.l]
  induction L generalizing que with
  | nil => exact ⟨que, rfl, h, rfl⟩
  | cons p rest ih =>
      rw [List.map_cons, PacerQueue.finalLoop, h.packet List.mem_cons_self,
        Option.bind_eq_bind, Option.bind_some]
      cases hp : p.event.sent with
      | true =>
          obtain ⟨que', hloop, hholds, htotal⟩ := ih h.pop
          refine ⟨que', ?_, ?_, htotal⟩
          · have hpacket : que.packets p.addr = some p.event :=
              h.packet List.mem_cons_self
            simp only [cacheRemove, h.find?_some List.mem_cons_self, hpacket,
              Option.bind_eq_bind, Option.bind_some, if_true]
            exact hloop
          · rwa [dropSent_cons_of_sent hp]
      | false =>
          refine ⟨que, rfl, ?_, rfl⟩
          rwa [dropSent_cons_of_unsent hp]

/-! ## The invariant -/

/-- The queue at time `now`, with the packets `L`. -/
structure Inv (que : PacerQueue) (L : List Queued) (now : Int) : Prop where
  holds : Holds que L
  totalSize : que.totalSize = bytes (unsent L)
  oldestTs : que.oldestTs = oldest L
  front_unsent : ∀ p, L.head? = some p → p.event.sent = false
  ordered : L.Pairwise fun p q => p.event.queTs ≤ q.event.queTs
  times : ∀ p ∈ L, 0 ≤ p.event.queTs ∧ p.event.queTs ≤ now
  sizes : ∀ p ∈ L, p.event.size < 2 ^ 32

variable {now : Int}

theorem init_inv (queMs : Nat) (now : Int) : Inv (init queMs) [] now where
  holds := ⟨rfl, .nil, fun _ => ⟨nofun, nofun⟩, fun _ => ⟨nofun, nofun⟩⟩
  totalSize := rfl
  oldestTs := rfl
  front_unsent := nofun
  ordered := .nil
  times := nofun
  sizes := nofun

theorem Inv.later (h : Inv que L now) {now' : Int} (hle : now ≤ now') :
    Inv que L now' :=
  { h with times := fun p hp => ⟨(h.times p hp).1, (h.times p hp).2.trans hle⟩ }

/-- Some packet in the queue is unsent, if there is any packet. -/
theorem Inv.exists_unsent (h : Inv que L now) (hne : L ≠ []) : ∃ p, p ∈ unsent L := by
  cases L with
  | nil => exact absurd rfl hne
  | cons p rest =>
      exact ⟨p, mem_unsent.mpr ⟨List.mem_cons_self, h.front_unsent p rfl⟩⟩

theorem Inv.cache_size_of_unsent (h : Inv que L now) (hnil : unsent L = []) :
    que.cache.size = 0 := by
  refine h.holds.cache_size.mpr ?_
  by_contra hne
  obtain ⟨p, hp⟩ := h.exists_unsent hne
  rw [hnil] at hp
  cases hp

/-- The bytes of the packets fit in a `size_t`. -/
theorem bytes_lt {M : List Queued} (hlen : M.length ≤ 2 ^ 32)
    (hsize : ∀ p ∈ M, p.event.size < 2 ^ 32) : bytes M < 2 ^ 64 := by
  have hle : bytes M ≤ M.length * (2 ^ 32 - 1) := by
    clear hlen
    induction M with
    | nil => exact Nat.zero_le _
    | cons p rest ih =>
        have hp := hsize p List.mem_cons_self
        have hrest := ih fun q hq => hsize q (List.mem_cons_of_mem _ hq)
        have hbytes : bytes (p :: rest) = p.event.size + bytes rest := rfl
        rw [List.length_cons, Nat.succ_mul]
        omega
  have hmul : M.length * (2 ^ 32 - 1) ≤ 2 ^ 32 * (2 ^ 32 - 1) :=
    Nat.mul_le_mul_right _ hlen
  omega

/-- A packet whose sequence number is waiting is rejected, and changes
nothing. -/
theorem Inv.push_seen (h : Inv que L now) (a : Addr) {ev : PacketEvent}
    (hp : p ∈ L) (hseq : p.event.seq = ev.seq) (hnow : now ≤ ev.queTs) :
    que.push a ev = (-1, que) := by
  have hfind : que.cache.find? ev.seq = some (ev.seq, p.addr) := by
    rw [← hseq]
    exact h.holds.find?_some hp
  have holdest : ¬ (que.oldestTs = -1 ∨ que.oldestTs > ev.queTs) := by
    rw [h.oldestTs]
    cases L with
    | nil => cases hp
    | cons q rest =>
        have htime := h.times q List.mem_cons_self
        show ¬ (q.event.queTs = -1 ∨ q.event.queTs > ev.queTs)
        omega
  simp [PacerQueue.push, hfind, holdest]

/-- Any other packet is accepted, and joins at the end. -/
theorem Inv.push_new (h : Inv que L now) {a : Addr} {ev : PacketEvent}
    (ha : que.packets a = none) (hne : ∀ p ∈ L, p.event.seq ≠ ev.seq)
    (hsent : ev.sent = false) (h0 : 0 ≤ ev.queTs) (hnow : now ≤ ev.queTs)
    (hsize : ev.size < 2 ^ 32) :
    (que.push a ev).1 = 0 ∧ Inv (que.push a ev).2 (L ++ [⟨a, ev⟩]) ev.queTs := by
  have hholds := h.holds.push ha hne
  have hsizes : ∀ p ∈ L ++ [⟨a, ev⟩], p.event.size < 2 ^ 32 := by
    simp only [List.mem_append, List.mem_singleton]
    rintro p (hp | rfl)
    · exact h.sizes p hp
    · exact hsize
  have hunsent : unsent (L ++ [⟨a, ev⟩]) = unsent L ++ [⟨a, ev⟩] := by
    rw [unsent_append, unsent_cons_of_unsent hsent]
    rfl
  have htotal : (que.totalSize + ev.size) % 2 ^ 64 = bytes (unsent (L ++ [⟨a, ev⟩])) := by
    have hlt : bytes (unsent (L ++ [⟨a, ev⟩])) < 2 ^ 64 :=
      bytes_lt ((List.length_filter_le ..).trans hholds.length_le)
        fun p hp => hsizes p (mem_unsent.mp hp).1
    have hsum : bytes (unsent (L ++ [⟨a, ev⟩])) = que.totalSize + ev.size := by
      rw [hunsent, h.totalSize]
      simp [bytes]
    rw [← hsum]
    exact Nat.mod_eq_of_lt hlt
  have hfields : ({ ev with sent := false } : PacketEvent) = ev := by rw [← hsent]
  have hpush : que.push a ev = (0,
      { { que.setPacket a (some ev) with
          cache := que.cache.insert ev.seq a
          l := que.l ++ [a] } with
        totalSize := (que.totalSize + ev.size) % 2 ^ 64
        oldestTs := if que.oldestTs = -1 ∨ que.oldestTs > ev.queTs then ev.queTs
          else que.oldestTs }) := by
    simp only [PacerQueue.push, h.holds.find?_none hne, hfields]
    split <;> simp_all [PacerQueue.setPacket]
  rw [hpush]
  refine ⟨rfl, { hholds with }, htotal, ?_, ?_, ?_, ?_, hsizes⟩
  · show (if que.oldestTs = -1 ∨ que.oldestTs > ev.queTs then ev.queTs
      else que.oldestTs) = _
    rw [h.oldestTs]
    cases L with
    | nil => rfl
    | cons q rest =>
        have htime := h.times q List.mem_cons_self
        refine if_neg ?_
        show ¬ (q.event.queTs = -1 ∨ q.event.queTs > ev.queTs)
        omega
  · cases L with
    | nil =>
        intro p hp
        obtain rfl := Option.some.inj hp
        exact hsent
    | cons q rest => exact h.front_unsent
  · rw [List.pairwise_append]
    refine ⟨h.ordered, List.pairwise_singleton .., ?_⟩
    intro p hp q hq
    obtain rfl := List.mem_singleton.mp hq
    exact (h.times p hp).2.trans hnow
  · simp only [List.mem_append, List.mem_singleton]
    rintro p (hp | rfl)
    · exact ⟨(h.times p hp).1, (h.times p hp).2.trans hnow⟩
    · exact ⟨h0, le_refl _⟩

/-! ## The front -/

/-- The loop of `pacer_queue_front` finds the first unsent packet of the
bindings. -/
theorem frontLoop_eq {bs : List (PacketSeq × Addr)} (ret : Option Addr)
    (hbs : ∀ b ∈ bs, ∃ p ∈ L, (p.event.seq, p.addr) = b) (h : Holds que L)
    (hsorted : bs.Pairwise fun a b => a.1 < b.1)
    (hex : ∃ p ∈ unsent L, (p.event.seq, p.addr) ∈ bs) :
    ∃ p ∈ unsent L, que.frontLoop bs ret = some (some p.addr) ∧
      ∀ q ∈ unsent L, (q.event.seq, q.addr) ∈ bs → p.event.seq ≤ q.event.seq := by
  induction bs generalizing ret with
  | nil =>
      obtain ⟨p, _, hp⟩ := hex
      cases hp
  | cons b rest ih =>
      obtain ⟨r, hr, rfl⟩ := hbs b List.mem_cons_self
      rw [List.pairwise_cons] at hsorted
      cases hsent : r.event.sent with
      | true =>
          -- a sent packet is passed over
          have hskip : ∀ q ∈ unsent L, (q.event.seq, q.addr) ∈
              (r.event.seq, r.addr) :: rest → (q.event.seq, q.addr) ∈ rest := by
            intro q hq hmem
            refine (List.mem_cons.mp hmem).resolve_left fun heq => ?_
            have hqr := h.eq_of_seq (mem_unsent.mp hq).1 hr (congrArg Prod.fst heq)
            rw [hqr, mem_unsent, hsent] at hq
            cases hq.2
          obtain ⟨p, hp, hmem⟩ := hex
          obtain ⟨p', hp', hloop, hleast⟩ := ih (some r.addr)
            (fun b hb => hbs b (List.mem_cons_of_mem _ hb)) hsorted.2
            ⟨p, hp, hskip p hp hmem⟩
          refine ⟨p', hp', ?_, fun q hq hmem => hleast q hq (hskip q hq hmem)⟩
          simp [frontLoop, h.packet hr, hsent, hloop]
      | false =>
          refine ⟨r, mem_unsent.mpr ⟨hr, hsent⟩, ?_, ?_⟩
          · simp [frontLoop, h.packet hr, hsent]
          · intro q _ hmem
            rcases List.mem_cons.mp hmem with heq | hmem
            · exact le_of_eq (congrArg Prod.fst heq).symm
            · exact le_of_lt (hsorted.1 _ hmem)

/-- **`pacer_queue_front`** returns the unsent packet with the least sequence
number, and no packet if there is none. -/
theorem Inv.front (h : Inv que L now) :
    unsent L = [] ∧ que.front = some none ∨
    ∃ p ∈ unsent L, que.front = some (some p.addr) ∧
      ∀ q ∈ unsent L, p.event.seq ≤ q.event.seq := by
  by_cases hnil : L = []
  · left
    have hsize := h.holds.cache_size.mpr hnil
    exact ⟨by rw [hnil]; rfl, by simp [PacerQueue.front, hsize]⟩
  · right
    have hsize : ¬ que.cache.size = 0 := fun h0 => hnil (h.holds.cache_size.mp h0)
    obtain ⟨p, hp⟩ := h.exists_unsent hnil
    obtain ⟨p, hp, hfront, hleast⟩ := frontLoop_eq none
      (fun b hb => (h.holds.cache b).mp hb) h.holds que.cache.sorted
      ⟨p, hp, h.holds.binding (mem_unsent.mp hp).1⟩
    refine ⟨p, hp, ?_, fun q hq => hleast q hq (h.holds.binding (mem_unsent.mp hq).1)⟩
    simp [PacerQueue.front, hsize, hfront]

/-! ## Sending -/

/-- `pacer_queue_final` restores the oldest packet. -/
theorem Holds.final (h : Holds que L) (htotal : que.totalSize = bytes (unsent L))
    (hordered : L.Pairwise fun p q => p.event.queTs ≤ q.event.queTs)
    (htimes : ∀ p ∈ L, 0 ≤ p.event.queTs ∧ p.event.queTs ≤ now)
    (hsizes : ∀ p ∈ L, p.event.size < 2 ^ 32) :
    ∃ que', que.final = some que' ∧ Inv que' (dropSent L) now := by
  obtain ⟨que₁, hloop, hholds, htotal₁⟩ := h.finalLoop
  have hsub : (dropSent L).Sublist L := List.dropWhile_sublist _
  have hinv : ∀ que', Holds que' (dropSent L) →
      que'.totalSize = bytes (unsent (dropSent L)) →
      que'.oldestTs = oldest (dropSent L) → Inv que' (dropSent L) now :=
    fun que' hh ht ho => ⟨hh, ht, ho, fun p => dropSent_head, hordered.sublist hsub,
      fun p hp => htimes p (hsub.subset hp), fun p hp => hsizes p (hsub.subset hp)⟩
  rw [PacerQueue.final, hloop, Option.bind_eq_bind, Option.bind_some, hholds.l]
  cases hL : dropSent L with
  | nil =>
      rw [hL] at hholds hinv
      refine ⟨_, rfl, hinv _ ?_ rfl rfl⟩
      have hcache := hholds.cache_nil.mpr rfl
      refine ⟨hholds.l, .nil, ?_, fun b => ⟨nofun, nofun⟩⟩
      intro p
      rw [← hholds.packets]
      simp [cacheClear, hcache]
  | cons p rest =>
      rw [hL] at hholds hinv
      rw [List.map_cons]
      simp only [hholds.packet List.mem_cons_self]
      refine ⟨_, rfl, hinv _ ⟨rfl, hholds.nodup, hholds.packets, hholds.cache⟩ ?_ rfl⟩
      show que₁.totalSize = _
      rw [htotal₁, htotal, ← hL, unsent_dropSent]

/-- **`pacer_queue_sent`** takes exactly one packet out of the unsent ones, and lets
go of packets that came first. -/
theorem Inv.sent (h : Inv que L now) (hp : p ∈ unsent L) :
    ∃ que' L', que.sent p.event.seq = some que' ∧ Inv que' L' now ∧
      (unsent L).Perm (p :: unsent L') ∧
      L'.map (·.event.seq) <:+ L.map (·.event.seq) := by
  obtain ⟨hmem, hunsent⟩ := mem_unsent.mp hp
  have hsize : ¬ que.cache.size = 0 := fun h0 =>
    List.ne_nil_of_mem hmem (h.holds.cache_size.mp h0)
  have hfind := h.holds.find?_some hmem
  have hpacket := h.holds.packet hmem
  obtain ⟨pre, post, rfl⟩ := List.append_of_mem hmem
  -- the packet is marked where it is
  let ev : PacketEvent := { p.event with sent := true }
  let L₁ := pre ++ ⟨p.addr, ev⟩ :: post
  have hunsent₁ : unsent L₁ = unsent pre ++ unsent post := by
    rw [unsent_append, unsent_cons_of_sent rfl]
  have hunsent₀ : unsent (pre ++ p :: post) = unsent pre ++ p :: unsent post := by
    rw [unsent_append, unsent_cons_of_unsent hunsent]
  have hperm : (unsent (pre ++ p :: post)).Perm (p :: unsent L₁) := by
    rw [hunsent₀, hunsent₁]
    exact List.perm_middle
  have htotal : que.totalSize = p.event.size + bytes (unsent L₁) := by
    rw [h.totalSize, bytes_perm hperm]
    rfl
  let que₁ : PacerQueue := { que.setPacket p.addr (some ev) with
    totalSize := if que.totalSize ≥ p.event.size then que.totalSize - p.event.size
      else 0 }
  have hset : Holds (que.setPacket p.addr (some ev)) L₁ := h.holds.setPacket rfl
  have hholds₁ : Holds que₁ L₁ := { hset with }
  have htotal₁ : que₁.totalSize = bytes (unsent L₁) := by
    show (if que.totalSize ≥ p.event.size then que.totalSize - p.event.size else 0) = _
    rw [htotal, if_pos (Nat.le_add_right _ _), Nat.add_sub_cancel_left]
  have hfields : ∀ q ∈ L₁, ∃ r ∈ pre ++ p :: post,
      q.event.queTs = r.event.queTs ∧ q.event.size = r.event.size := by
    intro q hq
    rcases List.mem_append.mp hq with hq | hq
    · exact ⟨q, by simp [hq], rfl, rfl⟩
    · rcases List.mem_cons.mp hq with rfl | hq
      · exact ⟨p, by simp, rfl, rfl⟩
      · exact ⟨q, by simp [hq], rfl, rfl⟩
  have hordered : L₁.Pairwise fun p q => p.event.queTs ≤ q.event.queTs := by
    have hts : L₁.map (·.event.queTs) = (pre ++ p :: post).map (·.event.queTs) := by
      simp [L₁, ev]
    have hold := h.ordered
    rw [← List.pairwise_map (f := fun p : Queued => p.event.queTs)] at hold ⊢
    rwa [hts]
  obtain ⟨que', hfinal, hinv⟩ := hholds₁.final htotal₁ hordered
    (fun q hq => by
      obtain ⟨r, hr, hts, _⟩ := hfields q hq
      rw [hts]
      exact h.times r hr)
    (fun q hq => by
      obtain ⟨r, hr, _, hsz⟩ := hfields q hq
      rw [hsz]
      exact h.sizes r hr)
  refine ⟨que', dropSent L₁, ?_, hinv, ?_, ?_⟩
  · simp only [PacerQueue.sent, hsize, if_false, hfind, hpacket, Option.bind_eq_bind,
      Option.bind_some]
    exact hfinal
  · rw [unsent_dropSent]
    exact hperm
  · have hseqs : L₁.map (·.event.seq) = (pre ++ p :: post).map (·.event.seq) := by
      simp [L₁, ev]
    rw [← hseqs]
    exact (List.dropWhile_suffix _).map _

end PacerQueue

end Razor
