import Mathlib.Data.List.DropRight
import RmcatNs3.Razor.InterArrival

/-!
# What the deltas say

Runs of the grouping, with the packets of every group. The arrival and size deltas are
those of the last two groups, and so is the timestamp delta if the later group holds a
packet that was sent after all of the earlier one. A burst may take its group far ahead,
and a packet that it has overtaken then opens a group of its own, which is older. The
time `-1` stands for no packet, so a packet that arrives then takes the timestamps of its
group before it, and its own, out of the delta.
-/

namespace Razor

open MachineInt Runs InterArrival

/-! ## Groups -/

/-- The largest send timestamp of a group. -/
def newest (ps : List ArrivedPacket) : Nat :=
  (ps.map (·.timestamp.toNat)).foldl max 0

def lastArrival (ps : List ArrivedPacket) : Int := (ps.getLast?.map (·.arrivalTs)).getD 0

def groupBytes (ps : List ArrivedPacket) : Nat := (ps.map (·.size)).sum

@[simp] theorem newest_append (ps : List ArrivedPacket) (p : ArrivedPacket) :
    newest (ps ++ [p]) = max (newest ps) p.timestamp.toNat := by
  simp [newest]

@[simp] theorem lastArrival_append (ps : List ArrivedPacket) (p : ArrivedPacket) :
    lastArrival (ps ++ [p]) = p.arrivalTs := by
  simp [lastArrival]

@[simp] theorem groupBytes_append (ps : List ArrivedPacket) (p : ArrivedPacket) :
    groupBytes (ps ++ [p]) = groupBytes ps + p.size := by
  simp [groupBytes]

/-- The largest timestamp is that of some packet. -/
theorem newest_mem {ps : List ArrivedPacket} (h : ps ≠ []) :
    ∃ p ∈ ps, newest ps = p.timestamp.toNat := by
  induction ps using List.reverseRecOn with
  | nil => exact absurd rfl h
  | append_singleton ps p ih =>
      rw [newest_append]
      by_cases hnil : ps = []
      · subst hnil
        exact ⟨p, by simp, Nat.max_eq_right (Nat.zero_le _)⟩
      · obtain ⟨q, hq, heq⟩ := ih hnil
        rcases Nat.le_total (newest ps) p.timestamp.toNat with hle | hle
        · exact ⟨p, by simp, Nat.max_eq_right hle⟩
        · exact ⟨q, List.mem_append_left _ hq, (Nat.max_eq_left hle).trans heq⟩

/-- The packets of a group after the last one that arrived at `-1`. -/
def remembered (ps : List ArrivedPacket) : List ArrivedPacket :=
  ps.rtakeWhile fun p => decide (p.arrivalTs ≠ -1)

theorem remembered_append (ps : List ArrivedPacket) {p : ArrivedPacket} (h : p.arrivalTs ≠ -1) :
    remembered (ps ++ [p]) = remembered ps ++ [p] :=
  List.rtakeWhile_concat_pos _ _ _ (decide_eq_true h)

/-- If nothing arrives at `-1`, every packet is remembered. -/
theorem remembered_eq_self {ps : List ArrivedPacket} (h : ∀ p ∈ ps, p.arrivalTs ≠ -1) :
    remembered ps = ps :=
  List.rtakeWhile_eq_self_iff.mpr fun p hp => decide_eq_true (h p hp)

theorem remembered_eq_nil_iff {ps : List ArrivedPacket} (hne : ps ≠ []) :
    remembered ps = [] ↔ lastArrival ps = -1 := by
  rw [remembered, List.rtakeWhile_eq_nil_iff, lastArrival, List.getLast?_eq_some_getLast hne]
  simp [hne]

/-- A `timestamp_group_t` that stands for the packets `ps`. -/
structure Describes (g : TimestampGroup) (ps : List ArrivedPacket) : Prop where
  nonempty : ps ≠ []
  timestamp : g.completeTs ≠ -1 → g.timestamp.toNat = newest (remembered ps)
  completeTs : g.completeTs = lastArrival ps
  size : g.size = toUnsigned 64 (groupBytes ps)

theorem Describes.remembered_ne_nil {g : TimestampGroup} {ps : List ArrivedPacket}
    (h : Describes g ps) (hset : g.completeTs ≠ -1) : remembered ps ≠ [] := by
  rwa [Ne, remembered_eq_nil_iff h.nonempty, ← h.completeTs]

/-- A group of one packet. -/
theorem describes_singleton (p : ArrivedPacket) (firstTimestamp : BitVec 32) :
    Describes ⟨toUnsigned 64 ((0 : Nat) + p.size), firstTimestamp, p.timestamp, p.arrivalTs,
      p.systemTs⟩ [p] where
  nonempty := List.cons_ne_nil p []
  timestamp := by
    intro hset
    rw [show [p] = [] ++ [p] from rfl, remembered_append [] hset, newest_append]
    exact (Nat.zero_max _).symm
  completeTs := rfl
  size := by simp [groupBytes]

/-- One more packet of a group; it starts the timestamps anew if the last one arrived at
`-1`. -/
theorem Describes.append {g : TimestampGroup} {ps : List ArrivedPacket} (h : Describes g ps)
    (p : ArrivedPacket) {timestamp firstTimestamp : BitVec 32}
    (hunset : g.completeTs = -1 → timestamp = p.timestamp)
    (hset : g.completeTs ≠ -1 →
      timestamp = if g.timestamp < p.timestamp then p.timestamp else g.timestamp) :
    Describes ⟨toUnsigned 64 (g.size + p.size), firstTimestamp, timestamp, p.arrivalTs,
      p.systemTs⟩ (ps ++ [p]) where
  nonempty := by simp
  timestamp := by
    intro harr
    simp only [remembered_append ps harr, newest_append]
    by_cases hbefore : g.completeTs = -1
    · rw [hunset hbefore, (remembered_eq_nil_iff h.nonempty).mpr (h.completeTs ▸ hbefore)]
      exact (Nat.zero_max _).symm
    · have htimestamp := h.timestamp hbefore
      simp only [hset hbefore, ← htimestamp, BitVec.lt_def]
      split <;> omega
  completeTs := by simp
  size := by
    have hcast := toUnsigned_cast 64 (groupBytes ps)
    have hsum := toUnsigned_cast 64 (toUnsigned 64 (groupBytes ps) + p.size : Nat)
    have hexact := toUnsigned_cast 64 (groupBytes ps + p.size : Nat)
    simp only [groupBytes_append, h.size]
    push_cast at *
    omega

/-- The largest timestamp of some packets is within the range of all. -/
theorem newest_mem_range {ps : List ArrivedPacket} (hne : ps ≠ []) {lo : Nat}
    (hspan : ∀ p ∈ ps, lo ≤ p.timestamp.toNat ∧ p.timestamp.toNat < lo + 2 ^ 31) :
    lo ≤ newest ps ∧ newest ps < lo + 2 ^ 31 := by
  obtain ⟨p, hp, heq⟩ := newest_mem hne
  exact heq ▸ hspan p hp

/-- The deltas of the group `qs` against the group `ps` before it. -/
structure ExactDeltas (ps qs : List ArrivedPacket) (d : Deltas) : Prop where
  positive : 0 < d.timestampDelta.toNat
  below : d.timestampDelta.toNat < 2 ^ 31
  timestamp : (d.timestampDelta.toNat : Int) = newest qs - newest ps
  nonneg : 0 ≤ d.arrivalDelta
  arrival : d.arrivalDelta = lastArrival qs - lastArrival ps
  size : d.sizeDelta = groupBytes qs - groupBytes ps

/-- The difference of two counters of bytes is an `int`. -/
theorem sizeDelta_eq {a b : Nat} :
    toSigned 32 ((toUnsigned 64 a : Nat) - (toUnsigned 64 b : Nat)) = (a : Int) - b ↔
      -2 ^ 31 ≤ (a : Int) - b ∧ (a : Int) - b < 2 ^ 31 := by
  have ha := toUnsigned_cast 64 a
  have hb := toUnsigned_cast 64 b
  unfold toSigned
  rw [Int.bmod_def]
  split <;> omega

/-- The later group reaches further, and the largest timestamps that are remembered differ by as
much as the largest of all; the difference of the sizes is an `int`. -/
structure Advances (ps qs : List ArrivedPacket) : Prop where
  newer : newest ps < newest qs
  difference : (newest (remembered qs) : Int) - newest (remembered ps) = newest qs - newest ps
  size : -2 ^ 31 ≤ (groupBytes qs : Int) - groupBytes ps ∧
    (groupBytes qs : Int) - groupBytes ps < 2 ^ 31

/-- If nothing arrives at `-1`, the later group only has to reach further. -/
theorem advances_iff {ps qs : List ArrivedPacket} (h : ∀ p ∈ ps ++ qs, p.arrivalTs ≠ -1) :
    Advances ps qs ↔ newest ps < newest qs ∧ -2 ^ 31 ≤ (groupBytes qs : Int) - groupBytes ps ∧
      (groupBytes qs : Int) - groupBytes ps < 2 ^ 31 := by
  have hps := remembered_eq_self fun p hp => h p (List.mem_append_left _ hp)
  have hqs := remembered_eq_self fun p hp => h p (List.mem_append_right _ hp)
  exact ⟨fun hadvances => ⟨hadvances.newer, hadvances.size⟩,
    fun hreaches => ⟨hreaches.1, by rw [hps, hqs], hreaches.2⟩⟩

/-- **Deltas are exact** exactly if the later group advances. -/
theorem exactDeltas_iff {g g' : TimestampGroup} {ps qs : List ArrivedPacket} {lo : Nat}
    (h : Describes g ps) (h' : Describes g' qs) (hset : g.completeTs ≠ -1)
    (hset' : g'.completeTs ≠ -1)
    (hspan : ∀ p ∈ ps ++ qs, lo ≤ p.timestamp.toNat ∧ p.timestamp.toNat < lo + 2 ^ 31)
    (harr : 0 ≤ g'.completeTs - g.completeTs) :
    ExactDeltas ps qs ⟨g'.timestamp - g.timestamp, g'.completeTs - g.completeTs,
      toSigned 32 (g'.size - g.size)⟩ ↔ Advances ps qs := by
  have hps := fun p hp => hspan p (List.mem_append_left _ hp)
  have hqs := fun p hp => hspan p (List.mem_append_right _ hp)
  obtain ⟨hlo, hhi⟩ := newest_mem_range h.nonempty hps
  obtain ⟨hlo', hhi'⟩ := newest_mem_range h'.nonempty hqs
  obtain ⟨hlow, hhigh⟩ := newest_mem_range (h.remembered_ne_nil hset) fun p hp =>
    hps p ((List.rtakeWhile_suffix _ _).mem hp)
  obtain ⟨hlow', hhigh'⟩ := newest_mem_range (h'.remembered_ne_nil hset') fun p hp =>
    hqs p ((List.rtakeWhile_suffix _ _).mem hp)
  have hlt : newest (remembered ps) < 2 ^ 32 := h.timestamp hset ▸ g.timestamp.isLt
  have hlt' : newest (remembered qs) < 2 ^ 32 := h'.timestamp hset' ▸ g'.timestamp.isLt
  have hsub : (g'.timestamp - g.timestamp).toNat
      = (2 ^ 32 - newest (remembered ps) + newest (remembered qs)) % 2 ^ 32 := by
    rw [BitVec.toNat_sub, h.timestamp hset, h'.timestamp hset']
  rw [h.size, h'.size]
  constructor
  · intro hexact
    have hpos := hexact.positive
    have hbelow := hexact.below
    have htimestamp := hexact.timestamp
    simp only at hpos hbelow htimestamp
    -- all four are within a range of `2 ^ 31`, so the difference has not wrapped
    exact ⟨by omega, by omega, sizeDelta_eq.mp hexact.size⟩
  · rintro ⟨hnewer, hremembered, hsize⟩
    have heq : (g'.timestamp - g.timestamp).toNat = newest qs - newest ps := by omega
    refine ⟨?_, ?_, ?_, harr, ?_, sizeDelta_eq.mpr hsize⟩
    · simp only [heq]
      omega
    · simp only [heq]
      omega
    · simp only [heq]
      omega
    · rw [h.completeTs, h'.completeTs]

/-! ## Runs -/

/-- The packets that have been accepted, in processing order, and the groups that they
are in: those that are complete and the one in progress. -/
structure GroupRun where
  arr : InterArrival
  accepted : List ArrivedPacket
  done : List (List ArrivedPacket)
  cur : List ArrivedPacket

namespace GroupRun

def create (burst : Int) (groupTicks : BitVec 32) : GroupRun :=
  ⟨.create burst groupTicks, [], [], []⟩

/-- Where a packet goes. -/
def place (c : GroupRun) (p : ArrivedPacket) (r : Outcome) : GroupRun :=
  match r.fate with
  | .joined => ⟨r.arr, c.accepted ++ [p], c.done, c.cur ++ [p]⟩
  | .opened => ⟨r.arr, c.accepted ++ [p], c.done ++ [c.cur], [p]⟩
  | .dropped => ⟨r.arr, c.accepted, c.done, c.cur⟩
  | .restarted => ⟨r.arr, c.accepted, c.done ++ [c.cur], []⟩

def Step (c : GroupRun) (p : ArrivedPacket) (c' : GroupRun) : Prop :=
  c' = c.place p (c.arr.computeDeltas p)

/-- What holds after every run. -/
structure Inv (es : List ArrivedPacket) (c : GroupRun) : Prop where
  sublist : c.accepted.Sublist es
  partition : c.done.flatten ++ c.cur = c.accepted
  cur : (c.cur = [] ∧ c.arr.curTsGroup.completeTs = -1 ∧ c.arr.curTsGroup.size = 0) ∨
    Describes c.arr.curTsGroup c.cur
  prev : 0 ≤ c.arr.prevTsGroup.completeTs →
    ∃ ps, c.done.getLast? = some ps ∧ Describes c.arr.prevTsGroup ps

theorem create_inv (burst : Int) (groupTicks : BitVec 32) : Inv [] (create burst groupTicks) :=
  ⟨.slnil, rfl, .inl ⟨rfl, rfl, rfl⟩, fun h => absurd (show (0 : Int) ≤ -1 from h) (by decide)⟩

variable {c c' : GroupRun} {es : List ArrivedPacket} {p : ArrivedPacket}

theorem Inv.step (h : Inv es c) (hstep : Step c p c') :
    Inv (es ++ [p]) c' := by
  have hkeep : c.accepted.Sublist (es ++ [p]) :=
    h.sublist.trans (List.sublist_append_left es [p])
  have htake : (c.accepted ++ [p]).Sublist (es ++ [p]) := h.sublist.append_right [p]
  have hpartition : ∀ ps : List ArrivedPacket, c.done.flatten ++ (c.cur ++ ps) = c.accepted ++ ps :=
    fun ps => by rw [← List.append_assoc, h.partition]
  obtain rfl := hstep
  -- by the fate of the packet: joined, opened, dropped, restarted
  rcases computeDeltas_cases c.arr p with ⟨hfate, _, hprev, hcur⟩ | ⟨hfate, hset, hprev, hcur, _⟩ |
    ⟨hfate, _, hcur, hprev⟩ | ⟨hfate, _, hset, hcur, hprev⟩
  · simp only [place, hfate]
    refine ⟨htake, hpartition [p], .inr ?_, ?_⟩
    -- a packet that finds the time -1 starts the timestamps of the group anew
    · rcases h.cur with ⟨hnil, hunset, hsize⟩ | hdescribes
      · rcases hcur with ⟨_, hcur⟩ | ⟨hset, _⟩
        · rw [hcur, hsize, hnil]
          exact describes_singleton p p.timestamp
        · exact absurd hunset hset
      · rcases hcur with ⟨hunset, hcur⟩ | ⟨hset, hcur⟩
        · rw [hcur]
          exact hdescribes.append p (fun _ => rfl) fun hset => absurd hunset hset
        · rw [hcur]
          exact hdescribes.append p (fun hunset => absurd hunset hset) fun _ => rfl
    · rw [hprev]
      exact h.prev
  · have hdescribes := h.cur.resolve_left fun hnone => hset hnone.2.1
    simp only [place, hfate]
    refine ⟨htake, ?_, .inr ?_, fun _ => ⟨c.cur, by simp, ?_⟩⟩
    · rw [List.flatten_append, List.flatten_singleton, List.append_assoc]
      exact hpartition [p]
    · rw [hcur]
      exact describes_singleton p p.timestamp
    · rw [hprev]
      exact hdescribes
  · simp only [place, hfate]
    refine ⟨hkeep, h.partition, ?_, ?_⟩
    · rw [hcur]
      exact h.cur
    · rw [hprev]
      exact h.prev
  · simp only [place, hfate]
    refine ⟨hkeep, ?_, .inl ⟨rfl, ?_, ?_⟩, ?_⟩
    · rw [List.flatten_append, List.flatten_singleton, List.append_nil]
      exact h.partition
    · rw [hcur]
      rfl
    · rw [hcur]
      rfl
    · rw [hprev]
      exact fun h0 => absurd (show (0 : Int) ≤ -1 from h0) (by decide)

theorem inv_of_run {burst : Int} {groupTicks : BitVec 32}
    (h : Run Step (create burst groupTicks) es c) : Inv es c := by
  induction h with
  | nil => exact create_inv burst groupTicks
  | snoc _ hs ih => exact ih.step hs

/-- **Deltas are exact** exactly if the group that was completed advances beyond the group
before it. -/
theorem deltas_exact_iff {burst : Int} {groupTicks : BitVec 32} {lo : Nat}
    (h : Run Step (create burst groupTicks) es c)
    (hspan : ∀ p ∈ es, lo ≤ p.timestamp.toNat ∧ p.timestamp.toNat < lo + 2 ^ 31)
    {d : Deltas} (hd : (c.arr.computeDeltas p).deltas = some d) :
    c.done.flatten ++ c.cur = c.accepted ∧ c.accepted.Sublist es ∧
      ∃ ps, c.done.getLast? = some ps ∧ (ExactDeltas ps c.cur d ↔ Advances ps c.cur) := by
  have hinv := inv_of_run h
  refine ⟨hinv.partition, hinv.sublist, ?_⟩
  rcases computeDeltas_cases c.arr p with ⟨_, hnone, _⟩ | ⟨_, hset, _, _, hdeltas⟩ |
    ⟨_, hnone, _⟩ | ⟨_, hnone, _⟩
  · exact absurd (hnone.symm.trans hd) (Option.some_ne_none d).symm
  · obtain ⟨hprev, harrival, rfl⟩ := hdeltas d hd
    obtain ⟨ps, hlast, hbefore⟩ := hinv.prev hprev
    have hcur := hinv.cur.resolve_left fun hnil => hset hnil.2.1
    -- the packets of both groups are packets of the run
    have hgroups : ∀ q ∈ ps ++ c.cur,
        lo ≤ q.timestamp.toNat ∧ q.timestamp.toNat < lo + 2 ^ 31 := by
      intro q hq
      refine hspan q (hinv.sublist.subset ?_)
      rw [← hinv.partition]
      rcases List.mem_append.mp hq with hq | hq
      · exact List.mem_append_left _
          (List.mem_flatten.mpr ⟨ps, List.mem_of_getLast? hlast, hq⟩)
      · exact List.mem_append_right _ hq
    exact ⟨ps, hlast, exactDeltas_iff hbefore hcur (by omega) hset hgroups harrival⟩
  · exact absurd (hnone.symm.trans hd) (Option.some_ne_none d).symm
  · exact absurd (hnone.symm.trans hd) (Option.some_ne_none d).symm

/-- The state after some packets, with bursts and groups of 5 ms. -/
def after (ps : List ArrivedPacket) : GroupRun :=
  ps.foldl (fun c p => c.place p (c.arr.computeDeltas p)) (create 0 5)

theorem after_run (ps : List ArrivedPacket) : Run Step (create 0 5) ps (after ps) := by
  induction ps using List.reverseRecOn with
  | nil => exact .nil
  | append_singleton ps p ih =>
      have hstep : Step (after ps) p (after (ps ++ [p])) := by
        unfold Step after
        rw [List.foldl_append, List.foldl_cons, List.foldl_nil]
      exact ih.snoc hstep

/-- A packet of 100 bytes that is sent and arrives at some times. -/
def packetAt (timestamp : BitVec 32) (arrivalTs : Int) : ArrivedPacket :=
  ⟨timestamp, arrivalTs, arrivalTs, 100⟩

/-- The times `100` and `110` are the groups of the first two packets. -/
def twoGroups : List ArrivedPacket := [packetAt 100 1000, packetAt 110 1030]

/-- The packet of `115` is in the first group and arrives at `-1`. -/
def forgotten : List ArrivedPacket :=
  [packetAt 100 1000, packetAt 115 (-1), packetAt 112 1040, packetAt 150 1080]

/-- The group of `150` is compared with `112`. -/
theorem deltas_exact_iff_forgotten :
    (∃ ps, (after twoGroups).done.getLast? = some ps ∧
      ExactDeltas ps (after twoGroups).cur ⟨10, 30, 0⟩) ∧
    ∃ ps, (after forgotten).done.getLast? = some ps ∧
      ¬ ExactDeltas ps (after forgotten).cur ⟨38, 40, -200⟩ := by
  constructor
  · obtain ⟨-, -, ps, hlast, hexact⟩ := deltas_exact_iff (p := packetAt 150 1080)
      (after_run twoGroups)
      (show ∀ p ∈ twoGroups, 0 ≤ p.timestamp.toNat ∧ p.timestamp.toNat < 0 + 2 ^ 31 by decide)
      (show _ = some ⟨10, 30, 0⟩ by decide)
    obtain rfl := Option.some.inj hlast
    exact ⟨_, hlast, hexact.mpr ((advances_iff (by decide)).mpr (by decide))⟩
  · obtain ⟨-, -, ps, hlast, hexact⟩ := deltas_exact_iff (p := packetAt 190 1120)
      (after_run forgotten)
      (show ∀ p ∈ forgotten, 0 ≤ p.timestamp.toNat ∧ p.timestamp.toNat < 0 + 2 ^ 31 by decide)
      (show _ = some ⟨38, 40, -200⟩ by decide)
    obtain rfl := Option.some.inj hlast
    refine ⟨_, hlast, fun h => ?_⟩
    exact absurd (hexact.mp h).difference (by decide)

/-- A burst reaches `200` before the packet of `110` opens the next group. -/
def overtaken : List ArrivedPacket :=
  [packetAt 100 1000, packetAt 200 1001, packetAt 110 1030]

/-- The group of `110` is compared with a group that reaches `200`. -/
theorem not_exactDeltas_overtaken :
    ¬ ∀ burst groupTicks lo es c p d, Run Step (create burst groupTicks) es c →
      (∀ q ∈ es ++ [p], lo ≤ q.timestamp.toNat ∧ q.timestamp.toNat < lo + 2 ^ 31) →
      (c.arr.computeDeltas p).deltas = some d →
      ∃ ps, c.done.getLast? = some ps ∧ ExactDeltas ps c.cur d := by
  intro h
  obtain ⟨ps, _, hexact⟩ := h 0 5 0 overtaken (after overtaken) (packetAt 150 1080)
    ⟨110 - 200, 29, -100⟩ (after_run overtaken) (by decide) (by decide)
  exact absurd hexact.below (by decide)

end GroupRun

end Razor
