import Mathlib.Data.BitVec
import RmcatNs3.Lib.ComparatorMap

/-!
# Path addresses

`PathAddressInfo` and `comp_path` of `multipathvideo/model/mpcommon.h`: the
addresses and ports of a path, and the comparator that the maps of paths use.
-/

namespace Multipath

abbrev Ipv4Address := BitVec 32
abbrev Port := BitVec 16

structure PathAddressInfo where
  srcIp : Ipv4Address
  destIp : Ipv4Address
  srcPort : Port
  destPort : Port
  deriving DecidableEq, Repr

/-- `comp_path`. -/
def compPath (ls rs : PathAddressInfo) : Bool :=
  decide (ls.srcIp < rs.srcIp) ||
  (decide (ls.srcIp = rs.srcIp) && decide (ls.destIp < rs.destIp)) ||
  (decide (ls.srcIp = rs.srcIp) && decide (ls.destIp = rs.destIp) &&
    decide (ls.srcPort < rs.srcPort)) ||
  -- the last clause compares the source port once more
  (decide (ls.srcIp = rs.srcIp) && decide (ls.destIp = rs.destIp) &&
    decide (ls.srcPort = rs.srcPort) && decide (ls.srcPort < rs.destPort))

/-- The two tuples differ in `destPort` at most. -/
def SameButDestPort (a b : PathAddressInfo) : Prop :=
  a.srcIp = b.srcIp ∧ a.destIp = b.destIp ∧ a.srcPort = b.srcPort

instance (a b : PathAddressInfo) : Decidable (SameButDestPort a b) :=
  inferInstanceAs (Decidable (_ ∧ _))

/-- No source port is below the destination port, and `destPort` is not needed
to tell two of these tuples apart. -/
structure Separable (S : Set PathAddressInfo) : Prop where
  destPort_le : ∀ a ∈ S, a.destPort ≤ a.srcPort
  eq_of_same : ∀ a ∈ S, ∀ b ∈ S, SameButDestPort a b → a = b

theorem compPath_iff (ls rs : PathAddressInfo) : compPath ls rs = true ↔
    ls.srcIp < rs.srcIp ∨
    ls.srcIp = rs.srcIp ∧ (ls.destIp < rs.destIp ∨
      ls.destIp = rs.destIp ∧ (ls.srcPort < rs.srcPort ∨
        ls.srcPort = rs.srcPort ∧ ls.srcPort < rs.destPort)) := by
  simp only [compPath, Bool.or_eq_true, Bool.and_eq_true, decide_eq_true_eq]
  tauto

theorem compPath_self (a : PathAddressInfo) : compPath a a = true ↔ a.srcPort < a.destPort := by
  rw [compPath_iff]
  simp

/-- Where the destination port is not above the source port, the comparator
compares the first three fields. -/
theorem compPath_iff_of_le {ls rs : PathAddressInfo} (h : rs.destPort ≤ rs.srcPort) :
    compPath ls rs = true ↔
      ls.srcIp < rs.srcIp ∨
      ls.srcIp = rs.srcIp ∧ (ls.destIp < rs.destIp ∨
        ls.destIp = rs.destIp ∧ ls.srcPort < rs.srcPort) := by
  rw [compPath_iff]
  have hlast : ¬ (ls.srcPort = rs.srcPort ∧ ls.srcPort < rs.destPort) := by
    rintro ⟨heq, hlt⟩
    bv_omega
  rw [or_iff_left hlast]

theorem compPath_trans {a b c : PathAddressInfo} (hb : b.destPort ≤ b.srcPort)
    (hc : c.destPort ≤ c.srcPort) (hab : compPath a b = true) (hbc : compPath b c = true) :
    compPath a c = true := by
  rw [compPath_iff_of_le hb] at hab
  rw [compPath_iff_of_le hc] at hbc ⊢
  bv_omega

/-- Tuples that the comparator takes for the same one differ in `destPort` at most. -/
theorem same_of_keyEquiv {a b : PathAddressInfo} (ha : a.destPort ≤ a.srcPort)
    (hb : b.destPort ≤ b.srcPort) (h : KeyEquiv compPath a b) : SameButDestPort a b := by
  obtain ⟨hab, hba⟩ := h
  rw [compPath_iff_of_le hb] at hab
  rw [compPath_iff_of_le ha] at hba
  unfold SameButDestPort
  bv_omega

theorem keyEquiv_of_same {a b : PathAddressInfo} (ha : a.destPort ≤ a.srcPort)
    (hb : b.destPort ≤ b.srcPort) (h : SameButDestPort a b) : KeyEquiv compPath a b := by
  obtain ⟨hsrc, hdest, hport⟩ := h
  rw [KeyEquiv, compPath_iff_of_le ha, compPath_iff_of_le hb]
  bv_omega

/-- **The comparator** tells some tuples apart exactly if `destPort` makes no
difference among them and is never the greater port. -/
theorem tellsApart_iff (S : Set PathAddressInfo) : TellsApart compPath S ↔ Separable S := by
  constructor
  · intro h
    have hle : ∀ a ∈ S, a.destPort ≤ a.srcPort := by
      intro a ha
      have hself := h.irrefl ha
      rw [compPath_self] at hself
      bv_omega
    refine ⟨hle, ?_⟩
    intro a ha b hb hsame
    exact (h.equiv_iff a ha b hb).mp (keyEquiv_of_same (hle a ha) (hle b hb) hsame)
  · intro h
    apply TellsApart.of_total
    · intro a ha
      have hle := h.destPort_le a ha
      rw [compPath_self]
      bv_omega
    · intro a _ b hb c hc
      exact compPath_trans (h.destPort_le b hb) (h.destPort_le c hc)
    · intro a ha b hb hequiv
      exact h.eq_of_same a ha b hb
        (same_of_keyEquiv (h.destPort_le a ha) (h.destPort_le b hb) hequiv)

end Multipath
