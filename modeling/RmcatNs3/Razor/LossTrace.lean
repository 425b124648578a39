import Mathlib.Algebra.Order.Group.Nat
import Mathlib.Data.List.Induction
import Mathlib.Data.List.Nodup
import RmcatNs3.Lib.MachineInt

/-!
# The loss trace of the receiver

The part of `SimReceiver::RecvFakeData` in `razor-ns3/model/sim_receiver.cc` that calls
`m_lossSeqCb`, which is set. An id is a number below `2 ^ 32`. What `RecvFakeData` does
next does not read `m_base_seq`.
-/

namespace Razor

open MachineInt

/-- The field of `SimReceiver` that the trace reads. -/
structure LossTrace where
  baseSeq : Nat
  deriving DecidableEq, Repr

namespace LossTrace

def init : LossTrace := ⟨0⟩

/-- The ids that the loop goes over when `packetId` comes after `baseSeq`. -/
def gap (baseSeq packetId : Nat) : List Nat :=
  let from' := toUnsigned 32 (baseSeq + 1)
  List.range' from' (packetId - from')

/-- `RecvFakeData`, with the ids that it passes to `m_lossSeqCb`. -/
def recvFakeData (r : LossTrace) (packetId : Nat) : LossTrace × List Nat :=
  let reported :=
    if packetId ≠ toUnsigned 32 (r.baseSeq + 1) then gap r.baseSeq packetId else []
  (⟨packetId⟩, reported)

/-- The segments arrive one after the other. -/
def recvAll (ids : List Nat) : LossTrace × List Nat :=
  ids.foldl (fun (r, reported) id => ((r.recvFakeData id).1, reported ++ (r.recvFakeData id).2))
    (init, [])

/-! ## What the trace is for -/

/-- The ids of packets, which start at `1`. -/
def PacketIds (ids : List Nat) : Prop := ∀ id ∈ ids, 0 < id ∧ id < 2 ^ 32

instance (ids : List Nat) : Decidable (PacketIds ids) := inferInstanceAs (Decidable (∀ _ ∈ _, _))

/-- The ids that are reported belong to packets that do not arrive, and each of them is
reported once. -/
def LossesOf (arrivals reported : List Nat) : Prop :=
  reported.Nodup ∧ ∀ id ∈ reported, 0 < id ∧ id ∉ arrivals

instance (arrivals reported : List Nat) : Decidable (LossesOf arrivals reported) :=
  inferInstanceAs (Decidable (_ ∧ _))

/-- The last id that arrived. -/
def last (ids : List Nat) : Nat := ids.getLast?.getD 0

/-- The highest id that arrived. -/
def highest (ids : List Nat) : Nat := ids.foldl max 0

/-- An arrival that the trace can follow: a new highest id directly after the highest one
so far, or a duplicate with nothing between the last id and itself. -/
def InTurn (received : List Nat) (id : Nat) : Prop :=
  (last received = highest received ∧ highest received < id) ∨
    (id ∈ received ∧ id ≤ toUnsigned 32 (last received + 1))

/-- Every arrival is in turn after those before it. -/
def AllInTurn (arrivals : List Nat) : Prop :=
  ∀ received id, received ++ [id] <+: arrivals → InTurn received id

/-! ## One more arrival -/

variable {ids : List Nat} {id : Nat}

@[simp] theorem last_snoc (ids : List Nat) (id : Nat) : last (ids ++ [id]) = id := by
  simp [last]

@[simp] theorem highest_snoc (ids : List Nat) (id : Nat) :
    highest (ids ++ [id]) = max (highest ids) id := by
  simp [highest]

theorem baseSeq_recvAll (ids : List Nat) : (recvAll ids).1.baseSeq = last ids := by
  induction ids using List.reverseRecOn with
  | nil => rfl
  | append_singleton ids id _ =>
      rw [last_snoc, recvAll, List.foldl_append]
      rfl

/-- The ids between the last one and the next one are reported. -/
theorem reported_snoc (ids : List Nat) (id : Nat) :
    (recvAll (ids ++ [id])).2 = (recvAll ids).2 ++ gap (last ids) id := by
  rw [← baseSeq_recvAll ids, recvAll, List.foldl_append]
  change (recvAll ids).2 ++ ((recvAll ids).1.recvFakeData id).2 = _
  rw [recvFakeData]
  dsimp only
  split
  · rfl
  · rename_i hnext
    rw [gap, ← not_ne_iff.mp hnext, Nat.sub_self]
    rfl

theorem mem_gap {baseSeq packetId i : Nat} :
    i ∈ gap baseSeq packetId ↔ toUnsigned 32 (baseSeq + 1) ≤ i ∧ i < packetId := by
  rw [gap, List.mem_range'_1]
  omega

theorem le_highest (h : id ∈ ids) : id ≤ highest ids := by
  induction ids using List.reverseRecOn with
  | nil => cases h
  | append_singleton ids last ih =>
      rw [highest_snoc]
      rcases List.mem_append.mp h with h | h
      · exact (ih h).trans (le_max_left _ _)
      · exact (List.mem_singleton.mp h) ▸ le_max_right _ _

theorem last_le_highest (ids : List Nat) : last ids ≤ highest ids := by
  induction ids using List.reverseRecOn with
  | nil => exact le_refl 0
  | append_singleton ids id _ =>
      rw [last_snoc, highest_snoc]
      exact le_max_right _ _

theorem PacketIds.of_snoc (h : PacketIds (ids ++ [id])) :
    PacketIds ids ∧ 0 < id ∧ id < 2 ^ 32 :=
  ⟨fun i hi => h i (List.mem_append_left _ hi), h id (by simp)⟩

theorem PacketIds.highest_lt (h : PacketIds ids) : highest ids < 2 ^ 32 := by
  induction ids using List.reverseRecOn with
  | nil => decide
  | append_singleton ids id ih =>
      rw [highest_snoc]
      exact max_lt (ih h.of_snoc.1) h.of_snoc.2.2

/-- **Every id below the highest one** has arrived or been reported, and no other one has
been reported. -/
structure Covered (ids reported : List Nat) : Prop where
  covered : ∀ i, 0 < i → i ≤ highest ids → i ∈ ids ∨ i ∈ reported
  below : ∀ i ∈ reported, i ≤ highest ids

theorem covered_recvAll (h : PacketIds ids) : Covered ids (recvAll ids).2 := by
  induction ids using List.reverseRecOn with
  | nil =>
      refine ⟨fun i hpos hle => ?_, fun i hi => ?_⟩
      · exact absurd hle (not_le.mpr hpos)
      · cases hi
  | append_singleton ids id ih =>
      obtain ⟨hids, hpos, hlt⟩ := h.of_snoc
      obtain ⟨hcovered, hbelow⟩ := ih hids
      have hlast := last_le_highest ids
      rw [reported_snoc]
      refine ⟨fun i hi hle => ?_, fun i hi => ?_⟩
      · rw [highest_snoc] at hle
        rcases Nat.lt_or_ge (highest ids) i with hnew | hold
        · rcases Nat.lt_or_ge i id with hgap | hid
          · have hfrom : toUnsigned 32 (last ids + 1) = last ids + 1 := by
              unfold toUnsigned
              omega
            exact .inr (List.mem_append_right _ (mem_gap.mpr ⟨by omega, hgap⟩))
          · obtain rfl : i = id := by omega
            exact .inl (by simp)
        · rcases hcovered i hi hold with hmem | hmem
          · exact .inl (List.mem_append_left _ hmem)
          · exact .inr (List.mem_append_left _ hmem)
      · rw [highest_snoc]
        rcases List.mem_append.mp hi with hi | hi
        · exact (hbelow i hi).trans (le_max_left _ _)
        · exact (mem_gap.mp hi).2.le.trans (le_max_right _ _)

theorem LossesOf.of_snoc (h : LossesOf (ids ++ [id]) (recvAll (ids ++ [id])).2) :
    LossesOf ids (recvAll ids).2 := by
  rw [reported_snoc] at h
  refine ⟨h.1.of_append_left, fun i hi => ?_⟩
  obtain ⟨hpos, hnot⟩ := h.2 i (List.mem_append_left _ hi)
  exact ⟨hpos, fun hmem => hnot (List.mem_append_left _ hmem)⟩

theorem allInTurn_snoc : AllInTurn (ids ++ [id]) ↔ AllInTurn ids ∧ InTurn ids id := by
  constructor
  · intro h
    exact ⟨fun received i hpre => h received i (hpre.trans (List.prefix_append _ _)),
      h ids id (List.prefix_refl _)⟩
  · intro h received i hpre
    rcases List.prefix_concat_iff.mp hpre with heq | hpre
    · obtain ⟨rfl, hi⟩ := List.append_inj' heq rfl
      obtain rfl := List.singleton_inj.mp hi
      exact h.2
    · exact h.1 received i hpre

/-- What an arrival that is reported rightly has come after. -/
theorem inTurn_of_lossesOf (hids : PacketIds (ids ++ [id]))
    (h : LossesOf (ids ++ [id]) (recvAll (ids ++ [id])).2) : InTurn ids id := by
  obtain ⟨hold, hpos, hlt⟩ := hids.of_snoc
  obtain ⟨hcovered, _⟩ := covered_recvAll hold
  have hlast := last_le_highest ids
  have hhighest := hold.highest_lt
  obtain ⟨hnodup, hlost⟩ := h
  rw [reported_snoc] at hnodup hlost
  -- an id up to the highest one is not reported any more
  have hnot : ∀ i, i ≤ highest ids → i ∉ gap (last ids) id := by
    intro i hle hgap
    obtain ⟨hi, harrived⟩ := hlost i (List.mem_append_right _ hgap)
    rcases hcovered i hi hle with hmem | hmem
    · exact harrived (List.mem_append_left _ hmem)
    · exact List.disjoint_of_nodup_append hnodup hmem hgap
  have hfrom := toUnsigned_cast 32 (last ids + 1 : Nat)
  rcases Nat.lt_or_ge (highest ids) id with hnew | hle
  · refine .inl ⟨?_, hnew⟩
    by_contra hback
    refine hnot (last ids + 1) (by omega) (mem_gap.mpr ⟨?_, by omega⟩)
    push_cast at hfrom
    omega
  · right
    have hmem : id ∈ ids := by
      rcases hcovered id hpos hle with hmem | hmem
      · exact hmem
      · exact absurd (by simp) (hlost id (List.mem_append_left _ hmem)).2
    refine ⟨hmem, ?_⟩
    by_contra hgap
    push_cast at hfrom hgap
    refine hnot (toUnsigned 32 (last ids + 1)) ?_ (mem_gap.mpr ⟨le_refl _, not_le.mp hgap⟩)
    omega

/-- After an arrival in turn the gap is above all that arrived or was reported. -/
theorem mem_gap_of_last (hlt : id < 2 ^ 32) (hlast : last ids = highest ids)
    (hnew : highest ids < id) {i : Nat} (hi : i ∈ gap (last ids) id) :
    highest ids < i ∧ i < id := by
  have hfrom : toUnsigned 32 (last ids + 1 : Nat) = last ids + 1 :=
    toUnsigned_of_lt (by omega)
  have hi := mem_gap.mp hi
  push_cast at hfrom
  omega

/-- A new highest id: the ids between are reported. -/
theorem LossesOf.snoc_new (hids : PacketIds (ids ++ [id])) (h : LossesOf ids (recvAll ids).2)
    (hlast : last ids = highest ids) (hnew : highest ids < id) :
    LossesOf (ids ++ [id]) ((recvAll ids).2 ++ gap (last ids) id) := by
  obtain ⟨hold, _, hlt⟩ := hids.of_snoc
  obtain ⟨_, hbelow⟩ := covered_recvAll hold
  obtain ⟨hnodup, hlost⟩ := h
  refine ⟨List.nodup_append.mpr ⟨hnodup, List.nodup_range', ?_⟩, fun i hi => ?_⟩
  · intro i hi j hj hij
    have := hbelow i hi
    have := mem_gap_of_last hlt hlast hnew hj
    omega
  · rcases List.mem_append.mp hi with hi | hi
    · obtain ⟨hpos, hnot⟩ := hlost i hi
      refine ⟨hpos, fun harrived => ?_⟩
      rcases List.mem_append.mp harrived with harrived | harrived
      · exact hnot harrived
      · have := hbelow i hi
        have := List.mem_singleton.mp harrived
        omega
    · have hbounds := mem_gap_of_last hlt hlast hnew hi
      refine ⟨by omega, fun harrived => ?_⟩
      rcases List.mem_append.mp harrived with harrived | harrived
      · have := le_highest harrived
        omega
      · have := List.mem_singleton.mp harrived
        omega

/-- A duplicate that nothing is reported for. -/
theorem LossesOf.snoc_duplicate {reported : List Nat} (h : LossesOf ids reported)
    (hmem : id ∈ ids) : LossesOf (ids ++ [id]) reported := by
  refine ⟨h.1, fun i hi => ?_⟩
  obtain ⟨hpos, hnot⟩ := h.2 i hi
  refine ⟨hpos, fun harrived => ?_⟩
  rcases List.mem_append.mp harrived with harrived | harrived
  · exact hnot harrived
  · exact hnot (List.mem_singleton.mp harrived ▸ hmem)

/-- An arrival in turn is reported rightly. -/
theorem LossesOf.snoc (hids : PacketIds (ids ++ [id])) (h : LossesOf ids (recvAll ids).2)
    (hturn : InTurn ids id) : LossesOf (ids ++ [id]) (recvAll (ids ++ [id])).2 := by
  rw [reported_snoc]
  rcases hturn with ⟨hlast, hnew⟩ | ⟨hmem, hle⟩
  · exact h.snoc_new hids hlast hnew
  · have hnone : gap (last ids) id = [] := by
      rw [gap, Nat.sub_eq_zero_of_le hle]
      rfl
    rw [hnone, List.append_nil]
    exact h.snoc_duplicate hmem

/-! ## Whole runs -/

/-- **The trace reports losses exactly while every arrival is in turn**: it is a new
highest id right after the highest one, or a duplicate that leaves nothing to report. -/
theorem lossesOf_iff_allInTurn {arrivals : List Nat} (hids : PacketIds arrivals) :
    LossesOf arrivals (recvAll arrivals).2 ↔ AllInTurn arrivals := by
  induction arrivals using List.reverseRecOn with
  | nil =>
      refine ⟨fun _ received id hpre => ?_, fun _ => by decide⟩
      have := hpre.length_le
      simp at this
  | append_singleton ids id ih =>
      have ih := ih hids.of_snoc.1
      rw [allInTurn_snoc, ← ih]
      exact ⟨fun h => ⟨h.of_snoc, inTurn_of_lossesOf hids h⟩, fun h => h.1.snoc hids h.2⟩

/-- The packet `3` is lost, and `2` is duplicated. -/
theorem lossesOf_duplicate :
    LossesOf [1, 2, 2, 4] (recvAll [1, 2, 2, 4]).2 ∧ AllInTurn [1, 2, 2, 4] :=
  ⟨by decide, (lossesOf_iff_allInTurn (by decide)).mp (by decide)⟩

/-- **Two packets change places**: `2` is reported before it arrives, and `3`, which is
above the cursor again, after it has arrived. -/
theorem not_lossesOf_reordered : PacketIds [1, 3, 2, 4] ∧ (recvAll [1, 3, 2, 4]).2 = [2, 3] ∧
    ¬LossesOf [1, 3, 2, 4] (recvAll [1, 3, 2, 4]).2 := by
  decide

end LossTrace

end Razor
