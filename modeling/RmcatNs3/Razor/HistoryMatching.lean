import RmcatNs3.Lib.Runs
import RmcatNs3.Razor.FeedbackAdapter

/-!
# Matching lookups with the history

Runs of `feedback_add_packet`, with consecutive transport sequence numbers, and
`sender_history_get`. One unwrapper serves both. It follows the numbers that are
added and those that are looked up, so a packet is recorded under its true number
if the number used last is less than `2 ^ 15` behind it.
-/

namespace Razor

open Runs

/-- The adapter, the true number of the first packet, the packets that have been
added under their true numbers, the numbers that have been looked up, those of
them that were found, the number used last and the time of the last call that
read the clock. -/
structure HistoryRun where
  adapter : FeedbackAdapter
  first : Nat
  added : List (Int × PacketFeedback)
  lookedUp : List Int
  returned : List Int
  latest : Int
  nowTs : Int

inductive HistoryOp where
  | addPacket (sendTs nowTs : Int) (size : Nat)
  | get (s : Int)

namespace HistoryRun

def create (first : Nat) (nowTs : Int) : HistoryRun where
  adapter := .init
  first
  added := []
  lookedUp := []
  returned := []
  latest := first
  nowTs

/-- The true number of the next packet. -/
def next (c : HistoryRun) : Int := c.first + c.added.length

/-- A number that may be looked up: not before the first one, and at most
`2 ^ 15 - 1` behind the newest. -/
def Askable (c : HistoryRun) (s : Int) : Prop :=
  (c.first : Int) ≤ s ∧ s ≤ c.next - 1 ∧ c.next - 1 - s ≤ 2 ^ 15 - 1

/-- The packet that `feedback_add_packet` records. -/
def packet (c : HistoryRun) (sendTs : Int) (size : Nat) : PacketFeedback :=
  { createTs := sendTs, arrivalTs := -1, sendTs, sequenceNumber := Unwrapper.low16 c.next,
    payloadSize := size }

def addPacket (c : HistoryRun) (sendTs nowTs : Int) (size : Nat) : HistoryRun :=
  { c with
    adapter := c.adapter.addPacket sendTs nowTs (Unwrapper.low16 c.next) size
    added := c.added ++ [(c.next, c.packet sendTs size)]
    latest := c.next
    nowTs }

def get (c : HistoryRun) (s : Int) : HistoryRun :=
  { c with
    adapter := { c.adapter with hist := (c.adapter.hist.get (Unwrapper.low16 s)).2 }
    lookedUp := c.lookedUp ++ [s]
    returned :=
      if (c.adapter.hist.get (Unwrapper.low16 s)).1.isSome then c.returned ++ [s]
      else c.returned
    latest := s }

/-- One call. The clock does not go back. -/
def Step (c : HistoryRun) : HistoryOp → HistoryRun → Prop
  | .addPacket sendTs nowTs size, c' =>
      c.nowTs ≤ sendTs ∧ sendTs ≤ nowTs ∧ c' = c.addPacket sendTs nowTs size
  | .get s, c' => c.Askable s ∧ c' = c.get s

/-- A record that the last call of `feedback_add_packet` found too old, or one
before it. -/
def Evicted (c : HistoryRun) (b : Int × PacketFeedback) : Prop :=
  b.1 < c.next - 1 ∧ b.2.createTs + kHistoryCacheMs < c.nowTs

def Stored (c : HistoryRun) (b : Int × PacketFeedback) : Prop :=
  b.1 ∉ c.returned ∧ ¬ c.Evicted b

instance (c : HistoryRun) (b : Int × PacketFeedback) : Decidable (c.Evicted b) :=
  inferInstanceAs (Decidable (_ ∧ _))

instance (c : HistoryRun) (b : Int × PacketFeedback) : Decidable (c.Stored b) :=
  inferInstanceAs (Decidable (_ ∧ _))

/-- The history answers for the true numbers. -/
structure Matched (c : HistoryRun) : Prop where
  /-- A lookup returns the record that was added under its number, once. -/
  found : ∀ s p, c.Askable s → ((c.adapter.hist.get (Unwrapper.low16 s)).1 = some p ↔
    (s, p) ∈ c.added ∧ s ∉ c.returned ∧ ¬ c.Evicted (s, p))
  /-- It fails only if the record was returned or is too old. -/
  missing : ∀ s, c.Askable s → (c.adapter.hist.get (Unwrapper.low16 s)).1 = none →
    s ∈ c.returned ∨ ∃ p, (s, p) ∈ c.added ∧ c.Evicted (s, p)
  lastAck : c.adapter.hist.lastAckSeqNum = c.lookedUp.foldl max 0
  outstanding : c.adapter.hist.outstandingBytes
    = ((c.added.filter fun b => decide (c.Stored b ∧ c.lookedUp.foldl max 0 < b.1)).map
        (·.2.payloadSize)).sum % 2 ^ 64

/-- A packet is not added when the number used last is exactly `2 ^ 15` behind
the new one and the low bits of the new one are less than `2 ^ 15`. -/
def Clear (c : HistoryRun) : HistoryOp → Prop
  | .addPacket .. => ¬ (c.latest + 2 ^ 15 = c.next ∧ c.next % 2 ^ 16 < 2 ^ 15)
  | .get _ => True

def ClearStep (c : HistoryRun) (op : HistoryOp) (c' : HistoryRun) : Prop :=
  Step c op c' ∧ c.Clear op

/-! ## The invariant -/

/-- What holds after every run of clear steps. -/
structure Inv (c : HistoryRun) : Prop where
  limit : c.adapter.hist.limitedMs = kHistoryCacheMs
  first : c.first < 2 ^ 16
  numbers : ∀ (i : Nat) b, c.added[i]? = some b → b.1 = (c.first : Int) + i
  latest : c.added = [] ∧ c.adapter.hist.wrapper.lastValue = 0 ∧ c.latest = c.first ∨
    c.adapter.hist.wrapper.lastValue = c.latest ∧ c.first ≤ c.latest ∧ c.latest < c.next ∧
      c.next ≤ c.latest + 2 ^ 15
  stored : c.adapter.hist.l.toList = c.added.filter fun b => decide (c.Stored b)
  age : c.added.Pairwise fun a b => a.2.createTs ≤ b.2.createTs
  past : ∀ b ∈ c.added, b.2.createTs ≤ c.nowTs
  returned : ∀ s ∈ c.returned, s < c.next
  lastAck : c.adapter.hist.lastAckSeqNum = c.lookedUp.foldl max 0

theorem create_inv {first : Nat} (h : first < 2 ^ 16) (nowTs : Int) :
    Inv (create first nowTs) where
  limit := rfl
  first := h
  numbers := nofun
  latest := .inl ⟨rfl, rfl, rfl⟩
  stored := rfl
  age := .nil
  past := nofun
  returned := nofun
  lastAck := rfl

variable {c c' : HistoryRun}

@[simp] theorem next_addPacket (c : HistoryRun) (sendTs nowTs : Int) (size : Nat) :
    (c.addPacket sendTs nowTs size).next = c.next + 1 := by
  simp only [next, addPacket, List.length_append, List.length_singleton]
  push_cast
  omega

@[simp] theorem next_get (c : HistoryRun) (s : Int) : (c.get s).next = c.next := rfl

theorem Inv.lt_next (h : Inv c) {b : Int × PacketFeedback} (hb : b ∈ c.added) :
    b.1 < c.next := by
  obtain ⟨i, hi⟩ := List.mem_iff_getElem?.mp hb
  have hlt : i < c.added.length := (List.getElem?_eq_some_iff.mp hi).1
  rw [h.numbers i b hi, next]
  omega

/-- A number between the first and the newest is that of a packet. -/
theorem Inv.exists_packet (h : Inv c) {s : Int} (hs : c.Askable s) :
    ∃ p, (s, p) ∈ c.added := by
  obtain ⟨hfirst, hnewest, _⟩ := hs
  rw [next] at hnewest
  have hlt : (s - c.first).toNat < c.added.length := by omega
  have hget := List.getElem?_eq_getElem hlt
  have hnum := h.numbers _ _ hget
  refine ⟨c.added[(s - c.first).toNat].2, ?_⟩
  have hs : s = c.added[(s - c.first).toNat].1 := by omega
  have hmem := List.getElem_mem hlt
  rw [← Prod.mk.eta (p := c.added[(s - c.first).toNat]), ← hs] at hmem
  exact hmem

/-- **A lookup is decoded to its true number.** -/
theorem Inv.unwrapped_get (h : Inv c) {s : Int} (hs : c.Askable s) :
    c.adapter.hist.wrapper.wrap16Update (Unwrapper.low16 s) = s := by
  obtain ⟨hfirst, hnewest, hnear⟩ := hs
  rcases h.latest with ⟨hnil, _⟩ | ⟨hlast, hge, hlt, hle⟩
  · rw [next, hnil, List.length_nil] at hnewest
    omega
  · exact Unwrapper.wrap16Update_low16 (by omega) (by omega) (by omega)

/-- **A packet is recorded under its true number**, unless the number used last
is too far behind. -/
theorem Inv.unwrapped_add (h : Inv c) {sendTs nowTs : Int} {size : Nat}
    (hclear : c.Clear (.addPacket sendTs nowTs size)) :
    c.adapter.hist.wrapper.wrap16Update (Unwrapper.low16 c.next) = c.next := by
  have hfirst := h.first
  rcases h.latest with ⟨hnil, hlast, _⟩ | ⟨hlast, hge, hlt, hle⟩
  · have hinit : c.adapter.hist.wrapper = Unwrapper.init16 := congrArg Unwrapper.mk hlast
    have hnext : c.next = c.first := by rw [next, hnil, List.length_nil]; omega
    have hcast := Unwrapper.low16_cast c.next
    rw [hinit, Unwrapper.wrap16Update_init, hcast]
    omega
  · by_cases hfar : c.latest + 2 ^ 15 = c.next
    · -- the antipode, which the low bits decide
      have hhigh : ¬ c.next % 2 ^ 16 < 2 ^ 15 := fun hlow => hclear ⟨hfar, hlow⟩
      exact Unwrapper.wrap16Update_antipode (by omega) (by omega)
    · exact Unwrapper.wrap16Update_low16 (by omega) (by omega) (by omega)

/-! ## Adding a packet -/

/-- The records that are left when a packet is added. -/
theorem Inv.expired_toList (h : Inv c) {nowTs : Int} (hnow : c.nowTs ≤ nowTs) :
    (SenderHistory.expireLoop c.adapter.hist.limitedMs nowTs c.adapter.hist.l.size
        c.adapter.hist.l).toList
      = c.added.filter fun b =>
          decide (b.1 ∉ c.returned ∧ ¬ b.2.createTs + kHistoryCacheMs < nowTs) := by
  have hage : c.adapter.hist.l.toList.Pairwise fun a b => a.2.createTs ≤ b.2.createTs := by
    rw [h.stored]
    exact h.age.filter _
  rw [SenderHistory.expireLoop_toList (Nat.le_refl _) hage, h.stored, h.limit,
    List.filter_filter]
  apply List.filter_congr
  intro b _
  rw [← Bool.decide_and, decide_eq_decide, Stored, Evicted]
  constructor
  · rintro ⟨hyoung, hnot, _⟩
    exact ⟨hnot, hyoung⟩
  · rintro ⟨hnot, hyoung⟩
    exact ⟨hyoung, hnot, fun hevicted => hyoung (by omega)⟩

theorem Inv.addPacket (h : Inv c) {sendTs nowTs : Int} {size : Nat}
    (hstep : ClearStep c (.addPacket sendTs nowTs size) c') : Inv c' := by
  obtain ⟨⟨hsend, hnow, rfl⟩, hclear⟩ := hstep
  have hkey := h.unwrapped_add hclear
  have hexpired := h.expired_toList (Int.le_trans hsend hnow)
  have hmem : ∀ b ∈ SenderHistory.expireLoop c.adapter.hist.limitedMs nowTs
      c.adapter.hist.l.size c.adapter.hist.l, b.1 < c.next := by
    intro b hb
    rw [SortedMap.mem_def, hexpired] at hb
    exact h.lt_next (List.mem_of_mem_filter hb)
  have hlast := SortedMap.insert_last_toList (v := c.packet sendTs size) hmem
  have hnext := c.next_addPacket sendTs nowTs size
  have hfresh : c.next ∉ c.returned := fun hret => Int.lt_irrefl _ (h.returned _ hret)
  refine ⟨h.limit, h.first, ?_, .inr ⟨hkey, ?_, ?_, ?_⟩, ?_, ?_, ?_, ?_, h.lastAck⟩
  · intro i b hb
    rcases Nat.lt_or_ge i c.added.length with hi | hi
    · exact h.numbers i b (by rwa [← List.getElem?_append_left hi])
    · have hlt := (List.getElem?_eq_some_iff.mp hb).1
      rw [addPacket, List.length_append, List.length_singleton] at hlt
      obtain rfl : i = c.added.length := by omega
      have hlast' : (c.next, c.packet sendTs size) = b :=
        Option.some.inj (List.getElem?_concat_length.symm.trans hb)
      rw [← hlast']
      rfl
  · show (c.first : Int) ≤ c.next
    rw [next]
    omega
  · show c.next < (c.addPacket sendTs nowTs size).next
    omega
  · show (c.addPacket sendTs nowTs size).next ≤ c.next + 2 ^ 15
    omega
  · show (SortedMap.insert _ (c.adapter.hist.wrapper.wrap16Update _) _).toList
      = (c.added ++ [(c.next, c.packet sendTs size)]).filter _
    rw [hkey]
    refine hlast.trans ?_
    rw [hexpired, List.filter_append]
    congr 1
    · apply List.filter_congr
      intro b hb
      have hlt := h.lt_next hb
      rw [decide_eq_decide, Stored, Evicted, hnext]
      constructor
      · rintro ⟨hnot, hyoung⟩
        exact ⟨hnot, fun hevicted => hyoung hevicted.2⟩
      · rintro ⟨hnot, hkept⟩
        exact ⟨hnot, fun hold => hkept ⟨by omega, hold⟩⟩
    · -- the new record stays, however old it is
      rw [List.filter_cons_of_pos, List.filter_nil]
      refine decide_eq_true ⟨hfresh, fun hevicted => ?_⟩
      have hlt : c.next < (c.addPacket sendTs nowTs size).next - 1 := hevicted.1
      omega
  · refine List.pairwise_append.mpr ⟨h.age, List.pairwise_singleton _ _, ?_⟩
    intro a ha b hb
    obtain rfl := List.mem_singleton.mp hb
    exact Int.le_trans (h.past a ha) hsend
  · intro b hb
    rcases List.mem_append.mp hb with hb | hb
    · exact Int.le_trans (h.past b hb) (Int.le_trans hsend hnow)
    · obtain rfl := List.mem_singleton.mp hb
      exact hnow
  · intro s hs
    have hlt := h.returned s hs
    omega

/-! ## Looking up a number -/

/-- What a lookup finds. -/
theorem Inv.get_eq_some_iff (h : Inv c) {s : Int} (hs : c.Askable s) {p : PacketFeedback} :
    (c.adapter.hist.get (Unwrapper.low16 s)).1 = some p ↔
      (s, p) ∈ c.added ∧ c.Stored (s, p) := by
  have hmem : (s, p) ∈ c.adapter.hist.l ↔ (s, p) ∈ c.added ∧ c.Stored (s, p) := by
    rw [SortedMap.mem_def, h.stored, List.mem_filter, decide_eq_true_eq]
  rw [← hmem, ← SortedMap.lookup_eq_some_iff, SenderHistory.get_fst, h.unwrapped_get hs]

/-- A lookup takes the record under its number from those that are stored. -/
theorem Inv.stored_get_iff (h : Inv c) {s : Int} (hs : c.Askable s)
    {b : Int × PacketFeedback} (hb : b ∈ c.added) :
    (c.get s).Stored b ↔ b.1 ≠ s ∧ c.Stored b := by
  cases hget : (c.adapter.hist.get (Unwrapper.low16 s)).1 with
  | some p =>
      have hreturned : (c.get s).returned = c.returned ++ [s] := by
        rw [HistoryRun.get, hget]
        rfl
      show b.1 ∉ (c.get s).returned ∧ ¬ c.Evicted b ↔ _
      rw [hreturned, List.mem_append, List.mem_singleton, not_or, Stored]
      tauto
  | none =>
      have hreturned : (c.get s).returned = c.returned := by
        rw [HistoryRun.get, hget]
        rfl
      show b.1 ∉ (c.get s).returned ∧ ¬ c.Evicted b ↔ _
      rw [hreturned]
      constructor
      · intro hstored
        refine ⟨?_, hstored⟩
        rintro rfl
        have hfound := (h.get_eq_some_iff hs).mpr ⟨hb, hstored⟩
        rw [hget] at hfound
        cases hfound
      · exact fun hstored => hstored.2

theorem Inv.get (h : Inv c) {s : Int} (hs : c.Askable s) : Inv (c.get s) := by
  have hkey := h.unwrapped_get hs
  have hhist := c.adapter.hist.get_snd (Unwrapper.low16 s)
  rw [hkey] at hhist
  have hadded : (c.get s).added = c.added := rfl
  refine ⟨?_, h.first, h.numbers, .inr ⟨?_, hs.1, ?_, ?_⟩, ?_, h.age, h.past, ?_, ?_⟩
  · show (c.adapter.hist.get _).2.limitedMs = _
    rw [hhist]
    exact h.limit
  · show (c.adapter.hist.get _).2.wrapper.lastValue = s
    rw [hhist]
  · have hnewest := hs.2.1
    show s < c.next
    omega
  · have hnear := hs.2.2
    show c.next ≤ s + 2 ^ 15
    omega
  · show (c.adapter.hist.get _).2.l.toList = _
    rw [hhist, hadded]
    show c.adapter.hist.l.toList.filter _ = _
    rw [h.stored, List.filter_filter]
    apply List.filter_congr
    intro b hb
    rw [← Bool.decide_and, decide_eq_decide, h.stored_get_iff hs hb]
  · intro t ht
    have hor : t ∈ c.returned ∨ t = s := by
      have hcases : t ∈ if (c.adapter.hist.get (Unwrapper.low16 s)).1.isSome
          then c.returned ++ [s] else c.returned := ht
      split_ifs at hcases
      · simpa using hcases
      · exact .inl hcases
    rcases hor with hold | rfl
    · exact h.returned t hold
    · have hnewest := hs.2.1
      show t < c.next
      omega
  · show (c.adapter.hist.get _).2.lastAckSeqNum = (c.lookedUp ++ [s]).foldl max 0
    rw [hhist, List.foldl_append, ← h.lastAck]
    exact max_comm _ _

/-! ## Every run -/

theorem Inv.step (h : Inv c) {op : HistoryOp} (hstep : ClearStep c op c') : Inv c' := by
  cases op with
  | addPacket sendTs nowTs size => exact h.addPacket hstep
  | get s =>
      obtain ⟨⟨hs, rfl⟩, _⟩ := hstep
      exact h.get hs

theorem Inv.matched (h : Inv c) : Matched c where
  found := fun s p hs => h.get_eq_some_iff hs
  missing := by
    intro s hs hnone
    obtain ⟨p, hp⟩ := h.exists_packet hs
    by_cases hstored : c.Stored (s, p)
    · rw [(h.get_eq_some_iff hs).mpr ⟨hp, hstored⟩] at hnone
      cases hnone
    · rw [Stored, not_and_or, not_not, not_not] at hstored
      exact hstored.imp_right fun hevicted => ⟨p, hp, hevicted⟩
  lastAck := h.lastAck
  outstanding := by
    rw [SenderHistory.outstandingBytes_eq, h.stored, List.filter_filter, h.lastAck]
    congr 4
    funext b
    rw [← Bool.decide_and, decide_eq_decide]
    exact And.comm

theorem inv_of_run {first : Nat} (hfirst : first < 2 ^ 16) {nowTs : Int} {ops : List HistoryOp}
    (hrun : Run ClearStep (create first nowTs) ops c) : Inv c :=
  hrun.stateInvariant (create_inv hfirst nowTs) fun _ _ _ h hstep => h.step hstep

/-- **The history matches lookups with the packets** in every run in which no
packet is added right after a number exactly `2 ^ 15` behind it was used. -/
theorem matched_of_run {first : Nat} (hfirst : first < 2 ^ 16) {nowTs : Int}
    {ops : List HistoryOp} (hrun : Run ClearStep (create first nowTs) ops c) : Matched c :=
  (inv_of_run hfirst hrun).matched

theorem matched_of_run_wrap : ∃ c, Run ClearStep (create 65535 0)
    [.addPacket 1 1 100, .addPacket 2 2 200, .get 65535] c ∧ Matched c := by
  have hrun : Run ClearStep (create 65535 0)
      [.addPacket 1 1 100, .addPacket 2 2 200, .get 65535] _ :=
    .snoc (.snoc (.snoc .nil ⟨⟨by decide, by decide, rfl⟩, by simp [Clear, create, next]⟩)
      ⟨⟨by decide, by decide, rfl⟩, by simp [Clear, create, next, addPacket]⟩)
      ⟨⟨by simp [Askable, next, addPacket, create], rfl⟩, trivial⟩
  exact ⟨_, hrun, matched_of_run (by decide) hrun⟩

/-! ## The antipode -/

/-- Packets that are added one after the other. -/
theorem exists_run_adding (first n : Nat) :
    ∃ c, Run ClearStep (create first 0) (List.replicate n (.addPacket 0 0 1)) c ∧
      c.first = first ∧ c.next = first + n ∧ c.lookedUp = [] ∧ c.nowTs = 0 ∧
      c.next - 1 ≤ c.latest := by
  induction n with
  | zero =>
      refine ⟨create first 0, .nil, rfl, ?_, rfl, rfl, ?_⟩
      · simp [next, create]
      · show ((first : Int) + 0) - 1 ≤ first
        omega
  | succ n ih =>
      obtain ⟨c, hrun, hfirst, hnext, hasked, hnow, hlatest⟩ := ih
      refine ⟨c.addPacket 0 0 1, ?_, hfirst, ?_, hasked, rfl, ?_⟩
      · rw [List.replicate_succ']
        have hclear : ¬ (c.latest + 2 ^ 15 = c.next ∧ c.next % 2 ^ 16 < 2 ^ 15) := by omega
        exact .snoc hrun ⟨⟨Int.le_of_eq hnow, Int.le_refl 0, rfl⟩, hclear⟩
      · rw [next_addPacket, hnext]
        push_cast
        omega
      · rw [next_addPacket]
        show c.next + 1 - 1 ≤ c.next
        omega

/-- From `40000` on, `32768` packets are sent and `40000` is looked up, which is
`2 ^ 15 - 1` behind. The next packet is number `72768`, but it is recorded under
`7232`, so a lookup of it is not seen as the newest one. -/
theorem not_matched_antipode : ¬ ∀ (first : Nat) (nowTs : Int) (ops : List HistoryOp)
    (c : HistoryRun), first < 2 ^ 16 → Run Step (create first nowTs) ops c → Matched c := by
  intro hall
  obtain ⟨c, hclear, hfirst, hnext, hasked, hnow, _⟩ := exists_run_adding 40000 32768
  have hinv := inv_of_run (by decide) hclear
  have hs : c.Askable 40000 := by
    rw [Askable, hfirst, hnext]
    omega
  have hget := hinv.get hs
  have hrun : Run Step (create 40000 0) _ c := hclear.mono fun _ _ _ h => h.1
  have hstep : Step (c.get 40000) (.addPacket 0 0 1) ((c.get 40000).addPacket 0 0 1) :=
    ⟨Int.le_of_eq hnow, Int.le_refl 0, rfl⟩
  have hs' : ((c.get 40000).addPacket 0 0 1).Askable 72768 := by
    rw [Askable, next_addPacket, next_get, hnext]
    show ((c.first : Nat) : Int) ≤ _ ∧ _
    rw [hfirst]
    omega
  -- the new number is read as the one behind the antipode
  have hwrap : (⟨40000⟩ : Unwrapper).wrap16Update (Unwrapper.low16 72768) = 7232 := by decide
  have hwrap' : (⟨7232⟩ : Unwrapper).wrap16Update (Unwrapper.low16 72768) = 7232 := by decide
  have hlast : (c.get 40000).adapter.hist.wrapper = ⟨40000⟩ := by
    rw [get, SenderHistory.get_snd]
    exact congrArg Unwrapper.mk (hinv.unwrapped_get hs)
  have hack : (c.get 40000).adapter.hist.lastAckSeqNum = 40000 := by
    have hfold : (c.get 40000).lookedUp = [40000] := by
      show c.lookedUp ++ _ = _
      rw [hasked, List.nil_append]
    rw [hget.lastAck, hfold]
    rfl
  have hnum : (c.get 40000).next = 72768 := by
    rw [next_get, hnext]
    rfl
  have hfirstGet : Step c (.get 40000) (c.get 40000) := ⟨hs, rfl⟩
  have hlastGet : Step ((c.get 40000).addPacket 0 0 1) (.get 72768)
      (((c.get 40000).addPacket 0 0 1).get 72768) := ⟨hs', rfl⟩
  have hmatched := hall 40000 0 _ _ (by decide)
    (((hrun.snoc hfirstGet).snoc hstep).snoc hlastGet)
  have hwrong : ((c.get 40000).addPacket 0 0 1).adapter.hist.wrapper = ⟨7232⟩ := by
    show Unwrapper.mk (Unwrapper.wrap16Update _ (Unwrapper.low16 (c.get 40000).next)) = _
    rw [hlast, hnum, hwrap]
  have hseen : (((c.get 40000).addPacket 0 0 1).get 72768).adapter.hist.lastAckSeqNum = 40000 := by
    rw [get, SenderHistory.get_snd]
    show max (Unwrapper.wrap16Update _ _) (c.get 40000).adapter.hist.lastAckSeqNum = _
    rw [hwrong, hwrap', hack]
    rfl
  have hfold : (((c.get 40000).addPacket 0 0 1).get 72768).lookedUp = [40000, 72768] := by
    show (c.lookedUp ++ _) ++ _ = _
    rw [hasked]
    rfl
  have hlastAck := hmatched.lastAck
  rw [hseen, hfold] at hlastAck
  exact absurd hlastAck (by decide)

end HistoryRun

end Razor
