import Mathlib.Algebra.Order.BigOperators.Group.List
import Mathlib.Algebra.Order.Ring.Nat
import RmcatNs3.Multipath.PathPacing
import RmcatNs3.Multipath.SendBuffer

/-!
# What a path may send

The budget of a path in any run. The budget carries a deficit from one callback to the
next and drops a surplus, so what was charged and what is left never exceed together
what was granted; and a packet is charged only while nothing is owed, which costs at most
one packet more.
-/

namespace Multipath

open Razor Runs

namespace PacedPath

/-! ## The budget as a number -/

/-- Wrapping takes away from a grant, and never adds to it. -/
theorem toInt_ofNat_le (n : Nat) : (BitVec.ofNat 32 n).toInt ≤ n := by
  rw [BitVec.toInt_eq_toNat_cond, BitVec.toNat_ofNat]
  have hmod := Nat.mod_le n (2 ^ 32)
  split <;> omega

theorem toInt_add_ofNat_le {r : BitVec 32} (n : Nat) (hr : r.toInt < 0) :
    (r + BitVec.ofNat 32 n).toInt ≤ r.toInt + n := by
  rw [BitVec.toInt_eq_toNat_cond] at hr ⊢
  rw [BitVec.toInt_eq_toNat_cond, BitVec.toNat_add, BitVec.toNat_ofNat]
  have hlt := r.isLt
  split at hr <;> split <;> omega

/-- A charge that a signed integer holds leaves the difference. -/
theorem toInt_sub_eq {r bytes : BitVec 32} (hr : 0 ≤ r.toInt) (hbytes : bytes.toNat < 2 ^ 31) :
    (r - bytes).toInt = r.toInt - bytes.toNat := by
  rw [BitVec.toInt_eq_toNat_cond] at hr ⊢
  rw [BitVec.toInt_eq_toNat_cond, BitVec.toNat_sub]
  have hlt := r.isLt
  split at hr <;> split <;> omega

theorem slt_zero_iff (r : BitVec 32) : r.slt 0 = true ↔ r.toInt < 0 := by
  simp [BitVec.slt_eq_decide]

theorem zero_slt_iff (r : BitVec 32) : (0 : BitVec 32).slt r = true ↔ 0 < r.toInt := by
  simp [BitVec.slt_eq_decide]

theorem toNat_eq_of_pos {r : BitVec 32} (hr : 0 < r.toInt) :
    (r.toNat : Int) = r.toInt ∧ r.toNat < 2 ^ 31 := by
  rw [BitVec.toInt_eq_toNat_cond] at hr ⊢
  have hlt := r.isLt
  split at hr <;> omega

/-! ## The invariant -/

/-- The bytes on the wire. -/
def wireBytes (p : PacedPath) : Nat := (p.wire.map Wire.bytes).sum

/-- What is charged and what is left come out of what was granted, and `m_total` counts
the queue. -/
structure Budgeted (maxPacket : Nat) (p : PacedPath) : Prop where
  balance : (p.charged : Int) + p.byteRemaining.toInt ≤ p.granted
  charged_le : p.charged ≤ p.granted + maxPacket
  wire_le : p.wireBytes ≤ p.charged
  sizes_le : ∀ ele ∈ p.paceQueue, ele.len.toNat ≤ maxPacket
  total_eq : p.total = BitVec.ofNat 64 p.queuedBytes

variable {maxPacket : Nat} {p p' : PacedPath}

theorem Budgeted.unpaced {p : Path} (hbudget : p.byteRemaining = 0) (hqueue : p.paceQueue = []) :
    Budgeted maxPacket p.unpaced where
  balance := by simp [Path.unpaced, hbudget]
  charged_le := Nat.zero_le _
  wire_le := Nat.le_refl _
  sizes_le := by simp [Path.unpaced, hqueue]
  total_eq := by simp [Path.unpaced, queuedBytes, hqueue]

theorem Budgeted.addPacePacket (h : Budgeted maxPacket p) {packetId : BitVec 32}
    {retrans : BitVec 8} {size : BitVec 32} {now : Nat} (hsize : size.toNat ≤ maxPacket) :
    Budgeted maxPacket (p.addPacePacket packetId retrans size now) where
  balance := h.balance
  charged_le := h.charged_le
  wire_le := h.wire_le
  sizes_le := by
    intro ele hele
    rcases List.mem_append.mp hele with hold | hnew
    · exact h.sizes_le ele hold
    · obtain rfl := List.mem_singleton.mp hnew
      exact hsize
  total_eq := by
    have hbytes : (p.addPacePacket packetId retrans size now).queuedBytes =
        p.queuedBytes + size.toNat := by
      simp [queuedBytes, PacedPath.addPacePacket, Path.addPacePacket]
    rw [hbytes, BitVec.ofNat_add, ← h.total_eq, BitVec.ofNat_toNat]
    rfl

/-- A deficit is carried, a surplus is dropped. -/
theorem Budgeted.increaseBudget (h : Budgeted maxPacket p) (deltaTs : BitVec 32) :
    Budgeted maxPacket (p.increaseBudget deltaTs) := by
  have hbalance := h.balance
  have hfields : (p.increaseBudget deltaTs).paceQueue = p.paceQueue := by
    simp only [PacedPath.increaseBudget, Path.increaseBudget]
    split <;> rfl
  constructor
  · simp only [PacedPath.increaseBudget, Path.increaseBudget]
    generalize 5 * p.minRate.toNat * deltaTs.toNat / (4 * 1000 * 8) = byte
    by_cases howed : p.byteRemaining.slt 0 = true
    · have hgrant := toInt_add_ofNat_le byte ((slt_zero_iff _).mp howed)
      simp only [if_pos howed]
      omega
    · have hgrant := toInt_ofNat_le byte
      simp only [if_neg howed]
      rw [slt_zero_iff] at howed
      omega
  · have hle := h.charged_le
    simp only [PacedPath.increaseBudget]
    omega
  · exact h.wire_le
  · rw [hfields]
    exact h.sizes_le
  · have hbytes : (p.increaseBudget deltaTs).queuedBytes = p.queuedBytes := by
      rw [queuedBytes, hfields, queuedBytes]
    rw [hbytes]
    exact h.total_eq

/-- A packet is charged while nothing is owed, so what it costs beyond the grants is no
more than itself. -/
theorem Budgeted.sendMedia (hmax : maxPacket < 2 ^ 31) {ele : PacePacket}
    {rest : List PacePacket} (h : Budgeted maxPacket { p with paceQueue := ele :: rest })
    (hleft : 0 ≤ p.byteRemaining.toInt) :
    Budgeted maxPacket { p.sendMedia ele with paceQueue := rest } := by
  have hsize : ele.len.toNat ≤ maxPacket := h.sizes_le ele (List.mem_cons_self ..)
  have hbalance : (p.charged : Int) + p.byteRemaining.toInt ≤ p.granted := h.balance
  constructor
  · have hsub := toInt_sub_eq hleft (Nat.lt_of_le_of_lt hsize hmax)
    simp only [PacedPath.sendMedia, useBudget, Path.useBudget, hsub]
    omega
  · simp only [PacedPath.sendMedia, useBudget]
    omega
  · have hwire : p.wireBytes ≤ p.charged := h.wire_le
    have hsum : ({ p.sendMedia ele with paceQueue := rest } : PacedPath).wireBytes =
        p.wireBytes + ele.len.toNat := by
      simp [wireBytes, PacedPath.sendMedia, useBudget, Wire.bytes]
    rw [hsum]
    exact Nat.add_le_add_right hwire _
  · exact fun e he => h.sizes_le e (List.mem_cons_of_mem _ he)
  · have htotal : p.total = BitVec.ofNat 64
        (ele.len.toNat + (rest.map fun ele => ele.len.toNat).sum) := h.total_eq
    simp only [PacedPath.sendMedia, htotal, BitVec.ofNat_add, BitVec.ofNat_toNat]
    rw [BitVec.add_comm, BitVec.add_sub_cancel]
    rfl

/-- The loop goes on to the end of the queue, or until something is owed. -/
theorem Budgeted.paceLoop (hmax : maxPacket < 2 ^ 31) {l : List PacePacket}
    (h : Budgeted maxPacket { p with paceQueue := l }) :
    Budgeted maxPacket (p.paceLoop l) ∧
      ((p.paceLoop l).paceQueue = [] ∨ (p.paceLoop l).byteRemaining.slt 0 = true) := by
  induction l generalizing p with
  | nil => exact ⟨h, .inl rfl⟩
  | cons ele rest ih =>
      unfold PacedPath.paceLoop
      by_cases howed : p.byteRemaining.slt 0 = true
      · rw [if_pos howed]
        exact ⟨h, .inr howed⟩
      · rw [if_neg howed]
        rw [slt_zero_iff, Int.not_lt] at howed
        exact ih (h.sendMedia hmax howed)

/-- Probing counts and sends pieces, and has no other effect on a path. -/
theorem probeLoop_eq (splits : List (BitVec 16)) (p : PacedPath) :
    ∃ wire transSeq, p.probeLoop splits = { p with wire, transSeq } ∧
      (wire.map Wire.bytes).sum ≤ p.wireBytes + (splits.map (·.toNat)).sum := by
  induction splits generalizing p with
  | nil => exact ⟨p.wire, p.transSeq, rfl, Nat.le_refl _⟩
  | cons split rest ih =>
      unfold PacedPath.probeLoop
      by_cases hpiece : headerLen.toNat < split.toNat
      · obtain ⟨wire, transSeq, heq, hle⟩ := ih { p with
          wire := p.wire ++ [.probe (split - headerLen.setWidth 16) p.transSeq]
          transSeq := p.transSeq + 1 }
        refine ⟨wire, transSeq, by rw [if_pos hpiece, heq], Nat.le_trans hle ?_⟩
        -- a piece is as large as its data with the headers
        have hsize : (split - headerLen.setWidth 16).toNat + headerLen.toNat = split.toNat := by
          have hsub : (split - headerLen.setWidth 16).toNat =
              split.toNat - (headerLen.setWidth 16).toNat :=
            BitVec.toNat_sub_of_le (Nat.le_of_lt hpiece)
          have hheader : (headerLen.setWidth 16).toNat = headerLen.toNat := rfl
          omega
        simp only [wireBytes, List.map_append, List.map_cons, List.map_nil, List.sum_append,
          List.sum_cons, List.sum_nil, Wire.bytes, hsize]
        omega
      · obtain ⟨wire, transSeq, heq, hle⟩ := ih p
        refine ⟨wire, transSeq, by rw [if_neg hpiece, heq], Nat.le_trans hle ?_⟩
        simp only [List.map_cons, List.sum_cons]
        omega

/-- A probe takes all that is left, and its pieces are no larger. -/
theorem Budgeted.probe (h : Budgeted maxPacket p) (hp : p.probe = some p') :
    Budgeted maxPacket p' ∧ p'.paceQueue = p.paceQueue ∧
      (p.paceQueue ≠ [] → p'.byteRemaining = p.byteRemaining) := by
  unfold PacedPath.probe at hp
  split at hp
  · rename_i hprobe
    split at hp
    · exact absurd hp.symm (Option.some_ne_none _)
    · rename_i splits hsplit
      obtain rfl := Option.some.inj hp
      obtain ⟨wire, transSeq, heq, hle⟩ := probeLoop_eq splits p
      obtain ⟨_, rfl⟩ := MpSender.frameSplit_eq_some_iff.mp hsplit
      rw [SimSender.sum_frameSplit (by decide) (by decide)] at hle
      obtain ⟨hnat, hlt⟩ := toNat_eq_of_pos ((zero_slt_iff _).mp hprobe.2)
      have hbalance := h.balance
      have hcharged := h.charged_le
      have hwire := h.wire_le
      rw [heq]
      refine ⟨⟨?_, ?_, ?_, h.sizes_le, h.total_eq⟩, rfl, fun hne => absurd hprobe.1 hne⟩
      · have hsub := toInt_sub_eq (Int.le_of_lt ((zero_slt_iff _).mp hprobe.2)) hlt
        simp only [useBudget, Path.useBudget, hsub]
        omega
      · simp only [useBudget]
        omega
      · simp only [useBudget, wireBytes] at hwire hle ⊢
        omega
  · obtain rfl := Option.some.inj hp
    exact ⟨h, rfl, fun _ => rfl⟩

/-- A callback that finds its timer expired leaves the queue empty or the budget owed. -/
theorem Budgeted.paceCallback (hmax : maxPacket < 2 ^ 31) {now : Nat}
    (h : Budgeted maxPacket p) (hp : p.paceCallback now true = some p') :
    Budgeted maxPacket p' ∧ (p'.paceQueue = [] ∨ p'.byteRemaining.slt 0 = true) := by
  unfold PacedPath.paceCallback at hp
  simp only [if_true] at hp
  split at hp
  · exact absurd hp.symm (Option.some_ne_none _)
  · rename_i p₁ hprobe
    obtain rfl := Option.some.inj hp
    let deltaTs := BitVec.ofNat 32 now - BitVec.ofNat 32 p.lastUpdate
    obtain ⟨hloop, hdone⟩ := @Budgeted.paceLoop maxPacket (p.increaseBudget deltaTs) hmax _
      (h.increaseBudget deltaTs)
    obtain ⟨hafter, hqueue, hkept⟩ := hloop.probe hprobe
    refine ⟨⟨hafter.balance, hafter.charged_le, hafter.wire_le, hafter.sizes_le,
      hafter.total_eq⟩, ?_⟩
    -- a probe follows only an empty queue, so it does not undo what the loop leaves
    rcases hdone with hempty | howed
    · exact .inl (hqueue.trans hempty)
    · by_cases hempty : p₁.paceQueue = []
      · exact .inl hempty
      · rw [hqueue] at hempty
        exact .inr (by rw [hkept hempty, howed])

/-! ## Runs -/

/-- A packet that is queued is no larger than this. -/
def PaceInput.AtMost (maxPacket : Nat) : PaceInput → Prop
  | .addPacePacket _ _ size => size.toNat ≤ maxPacket
  | .paceCallback => True

theorem Budgeted.step (hmax : maxPacket < 2 ^ 31) {e : Nat × PaceInput}
    (h : Budgeted maxPacket p) (hsize : e.2.AtMost maxPacket) (hstep : Step p e p') :
    Budgeted maxPacket p' := by
  obtain ⟨now, input⟩ := e
  cases input with
  | addPacePacket packetId retrans size =>
      obtain rfl := Option.some.inj hstep
      exact h.addPacePacket hsize
  | paceCallback => exact (h.paceCallback hmax hstep).1

/-- A sum of few sizes of one packet fits in `m_total`. -/
theorem Budgeted.queuedBytes_lt (hmax : maxPacket < 2 ^ 31) (h : Budgeted maxPacket p)
    (hfew : p.paceQueue.length ≤ 2 ^ 33) : p.queuedBytes < 2 ^ 64 := by
  have hle : p.queuedBytes ≤ p.paceQueue.length * maxPacket := by
    have hsizes : ∀ n ∈ p.paceQueue.map fun ele => ele.len.toNat, n ≤ maxPacket := by
      intro n hn
      obtain ⟨ele, hele, rfl⟩ := List.mem_map.mp hn
      exact h.sizes_le ele hele
    have hsum := List.sum_le_card_nsmul _ _ hsizes
    rw [List.length_map] at hsum
    exact hsum
  calc p.queuedBytes
    _ ≤ p.paceQueue.length * maxPacket := hle
    _ ≤ 2 ^ 33 * (2 ^ 31 - 1) := Nat.mul_le_mul hfew (Nat.le_sub_one_of_lt hmax)
    _ < 2 ^ 64 := by decide

/-- **What a path may send** in any run, however irregularly the callbacks come: what it
charges for packets and probes, which is no less than what it puts on the wire, exceeds
what its budget was granted by at most one packet. A callback ends with an empty queue
or an owed budget, and `m_total` is the number of bytes in the queue. -/
theorem charged_le_of_run {start : Path} (hbudget : start.byteRemaining = 0)
    (hqueue : start.paceQueue = []) (hmax : maxPacket < 2 ^ 31) {es : List (Nat × PaceInput)}
    (hsizes : ∀ e ∈ es, e.2.AtMost maxPacket) (hrun : Run Step start.unpaced es p) :
    p.charged ≤ p.granted + maxPacket ∧ p.wireBytes ≤ p.charged ∧
      (∀ now p', Step p (now, .paceCallback) p' →
        p'.paceQueue = [] ∨ p'.byteRemaining.slt 0 = true) ∧
      p.total = BitVec.ofNat 64 p.queuedBytes ∧
      (p.paceQueue.length ≤ 2 ^ 33 → p.total.toNat = p.queuedBytes) := by
  have hinv : (∀ e ∈ es, e.2.AtMost maxPacket) → Budgeted maxPacket p := by
    refine hrun.invariant (I := fun es p => (∀ e ∈ es, e.2.AtMost maxPacket) →
      Budgeted maxPacket p) (fun _ => .unpaced hbudget hqueue) ?_
    intro es s e s' _ ih hstep hsizes
    have hbefore := ih fun e' he' => hsizes e' (List.mem_append_left _ he')
    exact hbefore.step hmax (hsizes e (by simp)) hstep
  have h := hinv hsizes
  refine ⟨h.charged_le, h.wire_le, fun now p' hstep => (h.paceCallback hmax hstep).2,
    h.total_eq, ?_⟩
  intro hfew
  rw [h.total_eq, BitVec.toNat_ofNat, Nat.mod_eq_of_lt (h.queuedBytes_lt hmax hfew)]

/-- A packet, a late callback that probes, and one more packet. -/
def lateCallbacks : List (Nat × PaceInput) :=
  [(0, .addPacePacket 0 0 1032), (5, .paceCallback), (200, .paceCallback),
    (201, .addPacePacket 1 0 532), (205, .paceCallback)]

/-- The second packet is charged to a budget of 62 bytes. -/
theorem charged_le_lateCallbacks : ∃ p,
    Run Step (Path.new ⟨0x0a010101, 0x0a010201, 49153, 5000⟩ 0 0 0).unpaced lateCallbacks p ∧
    (p.granted, p.charged, p.wire.length) = (62 + 2437 + 62, 1032 + 1467 + 532, 4) ∧
    p.charged ≤ p.granted + 1032 := by
  have hlast : (lateCallbacks.foldlM step?
      (Path.new ⟨0x0a010101, 0x0a010201, 49153, 5000⟩ 0 0 0).unpaced).map (fun p =>
        (p.granted, p.charged, p.wire.length)) =
      some (62 + 2437 + 62, 1032 + 1467 + 532, 4) := by
    decide
  obtain ⟨p, hp, hlast⟩ := Option.map_eq_some_iff.mp hlast
  have hrun := Run.of_foldlM hp
  have hsizes : ∀ e ∈ lateCallbacks, e.2.AtMost 1032 := by
    simp [lateCallbacks, PaceInput.AtMost]
  exact ⟨p, hrun, hlast, (charged_le_of_run rfl rfl (by decide) hsizes hrun).1⟩

end PacedPath

end Multipath
