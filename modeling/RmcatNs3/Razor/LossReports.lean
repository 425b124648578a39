import Mathlib.Data.Finset.Card
import Mathlib.Order.Interval.Finset.Nat
import RmcatNs3.Lib.Runs
import RmcatNs3.Razor.ReceiverCc

/-!
# Loss reports

Runs of the loss statistics over a stream of consecutive numbers, of which some are
lost. A report is exact, except for the first one if the first number that arrives is
a multiple of `2 ^ 16`: the number before it is then `-1`, which `prev_max_id` takes
for unset.
-/

namespace Razor

open MachineInt Runs LossStatistics

/-- The statistics, the numbers that have arrived and the highest one at the time of
the last report. -/
structure LossRun where
  stat : LossStatistics
  received : List Nat
  reported : Option Nat

inductive LossOp where
  | incoming (s : Nat)
  | calculate (nowTs : Int)

namespace LossRun

def init : LossRun := ⟨.init, [], none⟩

/-- A number that comes after `p` in order, by a gap below `2 ^ 15`. -/
def Follows : Option Nat → Nat → Prop
  | none, _ => True
  | some p, s => p < s ∧ s < p + 2 ^ 15

/-- One call. An arrival is known by the low 16 bits of its number. -/
def Step (c : LossRun) : LossOp → LossRun → Prop
  | .incoming s, c' =>
      Follows c.received.getLast? s ∧
      c' = { c with
        stat := c.stat.incoming (Unwrapper.low16 s)
        received := c.received ++ [s] }
  | .calculate nowTs, c' =>
      c' = { c with
        stat := (c.stat.calculate nowTs).2.2.2
        reported := if (c.stat.calculate nowTs).1 = 0 then c.received.getLast?
          else c.reported }

/-- The first number that arrived. -/
def first (c : LossRun) : Nat := c.received.head?.getD 0

/-- The highest number that arrived. -/
def top (c : LossRun) : Nat := c.received.getLast?.getD 0

/-- The number that the next report starts at. -/
def since (c : LossRun) : Nat :=
  match c.reported with
  | none => c.first
  | some r => r + 1

/-- How many numbers were sent that the next report is about. -/
def sent (c : LossRun) : Nat := c.top + 1 - c.since

/-- How many of them did not arrive. -/
def lost (c : LossRun) : Nat :=
  ((Finset.Icc c.since c.top).filter (· ∉ c.received)).card

/-- The report that is made at `nowTs` says what was sent and lost. -/
def Exact (c : LossRun) (nowTs : Int) : Prop :=
  (c.stat.calculate nowTs).2.1.toNat = 255 * c.lost / c.sent ∧
    (c.stat.calculate nowTs).2.2.1.toInt = c.sent

instance (c : LossRun) (nowTs : Int) : Decidable (c.Exact nowTs) :=
  inferInstanceAs (Decidable (_ ∧ _))

/-- The counts do not overflow an `int`. -/
def Fits (c : LossRun) : Prop := c.sent < 2 ^ 31 ∧ 255 * c.lost < 2 ^ 31

/-! ## The two calls -/

/-- The numbers of the unwrapper are smaller by this. -/
def circle (c : LossRun) : Int := 2 ^ 16 * (c.first / 2 ^ 16 : Nat)

/-- What holds once a number has arrived. -/
structure Tracks (c : LossRun) : Prop where
  nonempty : c.received ≠ []
  sorted : c.received.Pairwise (· < ·)
  lastValue : c.stat.wrapper.lastValue = c.top - c.circle
  maxId : c.stat.maxId = c.top - c.circle
  count : c.stat.count = toSigned 32 (c.received.filter (c.since ≤ ·)).length
  reported : ∀ r, c.reported = some r → c.first ≤ r ∧ r ≤ c.top
  /-- The baseline is right. -/
  base : c.first % 2 ^ 16 ≠ 0 ∨ c.reported ≠ none → c.stat.prevMaxId = c.since - 1 - c.circle
  /-- The first number was taken for none. -/
  missed : c.first % 2 ^ 16 = 0 → c.reported = none →
    c.stat.prevMaxId = -1 ∨ 0 ≤ c.stat.prevMaxId ∧ c.stat.prevMaxId < c.top - c.circle

/-- What holds between two calls. -/
def Inv (c : LossRun) : Prop := c = init ∨ Tracks c

/-- A report is made, or nothing happens. -/
theorem calculate_cases (stat : LossStatistics) (nowTs : Int) :
    (stat.calculate nowTs).1 = -1 ∧ (stat.calculate nowTs).2.2.2 = stat ∨
    (stat.prevMaxId ≠ -1 ∧ stat.prevMaxId + 20 ≤ stat.maxId ∧
      stat.calculate nowTs =
        (0, if toSigned 32 (stat.maxId - stat.prevMaxId) ≤ stat.count then 0
          else BitVec.ofInt 8 ((toSigned 32 ((toSigned 32 (stat.maxId - stat.prevMaxId)
            - stat.count) * 255)).tdiv (toSigned 32 (stat.maxId - stat.prevMaxId))),
        BitVec.ofInt 32 (toSigned 32 (stat.maxId - stat.prevMaxId)),
        { stat with prevMaxId := stat.maxId, count := 0, statTs := nowTs })) := by
  by_cases hearly : stat.maxId = -1 ∨ stat.prevMaxId = -1 ∨
      nowTs < stat.statTs + kLossStatisticsWindowMs ∨ stat.maxId < stat.prevMaxId + 20
  · have heq : stat.calculate nowTs = (-1, 0, 0, stat) := if_pos hearly
    rw [heq]
    exact .inl ⟨rfl, rfl⟩
  · have hlate := hearly
    simp only [not_or, not_lt] at hlate
    by_cases hdist : toSigned 32 (stat.maxId - stat.prevMaxId) ≤ 0
    · have heq : stat.calculate nowTs = (-1, 0, 0, stat) :=
        (if_neg hearly).trans (if_pos hdist)
      rw [heq]
      exact .inl ⟨rfl, rfl⟩
    · exact .inr ⟨hlate.2.1, hlate.2.2.2, (if_neg hearly).trans (if_neg hdist)⟩

variable {c c' : LossRun}

/-- Numbers arrive in order. -/
theorem Tracks.mem_le (h : Tracks c) {n : Nat} (hn : n ∈ c.received) : n ≤ c.top := by
  obtain ⟨l, top, hl⟩ := (List.eq_nil_or_concat c.received).resolve_left h.nonempty
  have hsorted := h.sorted
  rw [hl, List.concat_eq_append] at hn hsorted
  have htop : c.top = top := by simp [LossRun.top, hl]
  rw [htop]
  rcases List.mem_append.mp hn with hn | hn
  · exact Nat.le_of_lt ((List.pairwise_append.mp hsorted).2.2 n hn top (by simp))
  · exact Nat.le_of_eq (List.mem_singleton.mp hn)

theorem Tracks.first_mem (h : Tracks c) : c.first ∈ c.received := by
  obtain ⟨n, l, hl⟩ := List.exists_cons_of_ne_nil h.nonempty
  simp [LossRun.first, hl]

theorem Tracks.getLast?_eq (h : Tracks c) : c.received.getLast? = some c.top := by
  obtain ⟨l, n, hl⟩ := (List.eq_nil_or_concat c.received).resolve_left h.nonempty
  simp [LossRun.top, hl]

theorem Tracks.since_le (h : Tracks c) : c.first ≤ c.since ∧ c.since ≤ c.top + 1 := by
  have hfirst := h.mem_le h.first_mem
  unfold since
  cases hr : c.reported with
  | none => exact ⟨Nat.le_refl _, Nat.le_succ_of_le hfirst⟩
  | some r =>
      have hle := h.reported r hr
      simp only
      omega

theorem circle_eq (c : LossRun) : c.first - c.circle = c.first % 2 ^ 16 := by
  unfold circle
  omega

/-- Going around the circle keeps the low bits. -/
theorem low16_sub (s k : Nat) :
    Unwrapper.low16 (s - 2 ^ 16 * (k : Int)) = Unwrapper.low16 s := by
  apply Fin.ext
  have h := Unwrapper.low16_cast (s - 2 ^ 16 * (k : Int))
  have h' := Unwrapper.low16_cast s
  omega

/-- What the statistics make of a number. -/
theorem incoming_eq {stat : LossStatistics} {seq : TransportSeq} {id : Int}
    (hid : stat.wrapper.wrap16Update seq = id) :
    stat.incoming seq =
      { statTs := stat.statTs
        prevMaxId := if stat.prevMaxId = -1 ∧ id > 0 then id - 1 else stat.prevMaxId
        maxId := if stat.maxId < id then id else stat.maxId
        count := toSigned 32 (stat.count + 1)
        wrapper := ⟨id⟩ } := by
  rw [← hid]
  rfl

/-- The first arrival. -/
theorem init_incoming (s : Nat) :
    Tracks ⟨LossStatistics.init.incoming (Unwrapper.low16 s), [s], none⟩ := by
  have hid : LossStatistics.init.wrapper.wrap16Update (Unwrapper.low16 s)
      = (s : Int) % 2 ^ 16 := by
    rw [← Unwrapper.low16_cast]
    exact Unwrapper.wrap16Update_init _
  have hnonneg : -1 < (s : Int) % 2 ^ 16 := by omega
  have hstat : LossStatistics.init.incoming (Unwrapper.low16 s) =
      ⟨-1, if (s : Int) % 2 ^ 16 > 0 then (s : Int) % 2 ^ 16 - 1 else -1, (s : Int) % 2 ^ 16, 1,
        ⟨(s : Int) % 2 ^ 16⟩⟩ := by
    rw [incoming_eq hid]
    simp only [LossStatistics.init, true_and, hnonneg, if_true]
    rfl
  have hsince : ∀ stat, LossRun.since ⟨stat, [s], none⟩ = s := fun _ => rfl
  rw [hstat]
  -- the unwrapper starts on the circle of its first number
  have hcircle : (s : Int) % 2 ^ 16 = s - 2 ^ 16 * (s / 2 ^ 16 : Nat) := by omega
  refine ⟨List.cons_ne_nil s [], List.pairwise_singleton _ s, hcircle, hcircle, ?_, nofun, ?_, ?_⟩
  · have hone : toSigned 32 ((1 : Nat) : Int) = 1 := by decide
    rw [hsince, List.filter_singleton, decide_eq_true (Nat.le_refl s)]
    exact hone.symm
  · intro hbase
    have hfirst : s % 2 ^ 16 ≠ 0 := hbase.resolve_right fun h => h rfl
    show (if (s : Int) % 2 ^ 16 > 0 then (s : Int) % 2 ^ 16 - 1 else -1)
      = (s : Int) - 1 - 2 ^ 16 * (s / 2 ^ 16 : Nat)
    rw [if_pos (by omega)]
    omega
  · intro hzero _
    have hfirst : s % 2 ^ 16 = 0 := hzero
    left
    exact if_neg (by omega)

/-- A baseline that is right is not `-1`. -/
theorem Tracks.base_nonneg (h : Tracks c) (hbase : c.first % 2 ^ 16 ≠ 0 ∨ c.reported ≠ none) :
    0 ≤ c.stat.prevMaxId := by
  have hprev := h.base hbase
  have hcircle := circle_eq c
  have hstart := h.since_le
  rcases hbase with hfirst | hreported
  · omega
  · obtain ⟨r, hr⟩ := Option.ne_none_iff_exists'.mp hreported
    have hbounds := h.reported r hr
    have hsince : c.since = r + 1 := by simp [since, hr]
    omega

/-- One more number does not change where the next report starts. -/
theorem Tracks.append_eq (h : Tracks c) (stat : LossStatistics) (s : Nat) :
    let c' : LossRun := ⟨stat, c.received ++ [s], c.reported⟩
    c'.first = c.first ∧ c'.top = s ∧ c'.since = c.since ∧ c'.circle = c.circle := by
  have hfirst : first ⟨stat, c.received ++ [s], c.reported⟩ = c.first := by
    obtain ⟨n, l, hl⟩ := List.exists_cons_of_ne_nil h.nonempty
    simp [first, hl]
  refine ⟨hfirst, by simp [top], ?_, ?_⟩
  · unfold since
    rw [hfirst]
  · unfold circle
    rw [hfirst]

/-- A number that follows in order. -/
theorem Tracks.incoming (h : Tracks c) {s : Nat} (hlow : c.top < s) (hhigh : s < c.top + 2 ^ 15) :
    Tracks { c with
      stat := c.stat.incoming (Unwrapper.low16 s)
      received := c.received ++ [s] } := by
  have hle := h.mem_le h.first_mem
  have hstart := h.since_le
  have hcircle := circle_eq c
  have hlast := h.lastValue
  have hmax := h.maxId
  have hid : c.stat.wrapper.wrap16Update (Unwrapper.low16 s) = s - c.circle := by
    have hlow16 : Unwrapper.low16 (s - c.circle) = Unwrapper.low16 s :=
      low16_sub s (c.first / 2 ^ 16)
    rw [← hlow16]
    exact Unwrapper.wrap16Update_low16 (by omega) (by omega) (by omega)
  rw [incoming_eq hid]
  obtain ⟨hfirst, htop, hsince, hcircle'⟩ := h.append_eq
    ⟨c.stat.statTs, if c.stat.prevMaxId = -1 ∧ (s : Int) - c.circle > 0 then s - c.circle - 1
      else c.stat.prevMaxId, if c.stat.maxId < s - c.circle then s - c.circle else c.stat.maxId,
      toSigned 32 (c.stat.count + 1), ⟨s - c.circle⟩⟩ s
  refine ⟨by simp, ?_, ?_, ?_, ?_, ?_, ?_, ?_⟩
  · rw [List.pairwise_append]
    refine ⟨h.sorted, List.pairwise_singleton _ s, ?_⟩
    intro n hn m hm
    rw [List.mem_singleton.mp hm]
    exact Nat.lt_of_le_of_lt (h.mem_le hn) hlow
  · rw [htop, hcircle']
  · rw [htop, hcircle']
    exact if_pos (by omega)
  · have hs : c.since ≤ s := by omega
    rw [hsince, List.filter_append, List.filter_singleton, decide_eq_true hs, List.length_append]
    show toSigned 32 (c.stat.count + 1) = toSigned 32 ((_ + 1 : Nat) : Int)
    rw [h.count, toSigned, toSigned, toSigned, Int.bmod_add_bmod, Int.natCast_add_one]
  · intro r hr
    have hbounds := h.reported r hr
    rw [hfirst, htop]
    omega
  · intro hbase
    rw [hfirst] at hbase
    -- a baseline of `-1` would be taken for unset, and moved
    have hset : c.stat.prevMaxId ≠ -1 := fun heq => by
      have hnonneg := h.base_nonneg hbase
      omega
    rw [hsince, hcircle', ← h.base hbase]
    exact if_neg fun hunset => hset hunset.1
  · intro hzero hr
    rw [hfirst] at hzero
    have hprev := h.missed hzero hr
    rw [htop, hcircle']
    dsimp only
    split <;> omega

/-- A report is made, and the next one starts after the highest number. -/
theorem Tracks.report (h : Tracks c) (statTs : Int) :
    Tracks { c with
      stat := { c.stat with prevMaxId := c.stat.maxId, count := 0, statTs }
      reported := c.received.getLast? } := by
  have hle := h.mem_le h.first_mem
  rw [h.getLast?_eq]
  refine ⟨h.nonempty, h.sorted, h.lastValue, h.maxId, ?_, ?_, fun _ => ?_, nofun⟩
  · -- nothing has arrived yet that the next report is about
    have hnil : (c.received.filter (c.top + 1 ≤ ·)) = [] := by
      rw [List.filter_eq_nil_iff]
      intro n hn
      have hn := h.mem_le hn
      simp only [decide_eq_true_eq]
      omega
    show 0 = toSigned 32 ((c.received.filter (c.top + 1 ≤ ·)).length : Nat)
    rw [hnil]
    rfl
  · intro r hr
    obtain rfl := Option.some.inj hr
    exact ⟨hle, Nat.le_refl _⟩
  · show c.stat.maxId = ((c.top + 1 : Nat) : Int) - 1 - c.circle
    rw [h.maxId]
    omega

/-- **Every call keeps** what holds between two calls. -/
theorem Inv.step {op : LossOp} (h : Inv c) (hstep : Step c op c') : Inv c' := by
  cases op with
  | incoming s =>
      right
      obtain ⟨hfollows, rfl⟩ := hstep
      rcases h with rfl | h
      · exact init_incoming s
      · rw [h.getLast?_eq] at hfollows
        exact h.incoming hfollows.1 hfollows.2
  | calculate nowTs =>
      obtain rfl := hstep
      rcases calculate_cases c.stat nowTs with ⟨hret, hstat⟩ | ⟨hprev, _, heq⟩
      · rw [hstat, hret]
        exact h
      · rw [heq]
        rcases h with rfl | h
        · exact absurd rfl hprev
        · exact .inr (h.report nowTs)

/-! ## Reports -/

/-- What was sent either arrived or was lost. -/
theorem Tracks.sent_eq (h : Tracks c) :
    (c.received.filter (c.since ≤ ·)).length + c.lost = c.sent := by
  have hnodup : (c.received.filter (c.since ≤ ·)).Nodup :=
    (h.sorted.imp Nat.ne_of_lt).filter _
  have harrived : (Finset.Icc c.since c.top).filter (· ∈ c.received)
      = (c.received.filter (c.since ≤ ·)).toFinset := by
    ext n
    simp only [Finset.mem_filter, Finset.mem_Icc, List.mem_toFinset, List.mem_filter,
      decide_eq_true_eq]
    constructor
    · rintro ⟨⟨hlo, _⟩, hn⟩
      exact ⟨hn, hlo⟩
    · rintro ⟨hn, hlo⟩
      exact ⟨⟨hlo, h.mem_le hn⟩, hn⟩
  have hsum := Finset.card_filter_add_card_filter_not (s := Finset.Icc c.since c.top)
    (· ∈ c.received)
  rw [harrived, List.toFinset_card_of_nodup hnodup, Nat.card_Icc] at hsum
  exact hsum

/-- A share of 255, as a byte. -/
theorem fraction_toNat {lost sent : Nat} (hle : lost ≤ sent) (hfits : 255 * lost < 2 ^ 31) :
    (BitVec.ofInt 8 ((toSigned 32 ((lost : Int) * 255)).tdiv sent)).toNat
      = 255 * lost / sent := by
  have hexact : toSigned 32 ((lost : Int) * 255) = ((255 * lost : Nat) : Int) := by
    rw [toSigned_of_bounds (by omega) (by omega)]
    omega
  have hlt : 255 * lost / sent < 2 ^ 8 := by
    have hdiv : 255 * lost / sent ≤ 255 := Nat.div_le_of_le_mul (by
      rw [Nat.mul_comm]
      exact Nat.mul_le_mul_right 255 hle)
    omega
  have hcast : ((255 * lost : Nat) : Int).tdiv sent = ((255 * lost / sent : Nat) : Int) := by
    rw [Int.tdiv_eq_ediv_of_nonneg (Int.natCast_nonneg _), Int.natCast_ediv]
  rw [hexact, hcast, BitVec.ofInt_natCast, BitVec.toNat_ofNat, Nat.mod_eq_of_lt hlt]

variable {nowTs : Int}

/-- With the right baseline a report is exact. -/
theorem Tracks.exact (h : Tracks c) (hbase : c.first % 2 ^ 16 ≠ 0 ∨ c.reported ≠ none)
    (hfits : c.Fits) (hret : (c.stat.calculate nowTs).1 = 0) : c.Exact nowTs := by
  obtain ⟨hsent, hlost⟩ := hfits
  have hsum := h.sent_eq
  have hprev := h.base hbase
  have hmax := h.maxId
  have hstart := h.since_le
  have hsize : c.sent = c.top + 1 - c.since := rfl
  have hdist : toSigned 32 (c.stat.maxId - c.stat.prevMaxId) = c.sent := by
    rw [toSigned_of_bounds] <;> omega
  have hcount : c.stat.count = (c.received.filter (c.since ≤ ·)).length := by
    rw [h.count, toSigned_of_bounds] <;> omega
  rcases calculate_cases c.stat nowTs with ⟨hno, _⟩ | ⟨_, _, heq⟩
  · rw [hno] at hret
    exact absurd hret (by decide)
  · rw [Exact, heq, hdist, hcount]
    constructor
    · by_cases hall : (c.sent : Int) ≤ ((c.received.filter (c.since ≤ ·)).length : Nat)
      · have hnone : c.lost = 0 := by omega
        simp only [if_pos hall, hnone]
        simp
      · have hdiff : (c.sent : Int) - ((c.received.filter (c.since ≤ ·)).length : Nat)
            = (c.lost : Int) := by omega
        simp only [if_neg hall]
        rw [hdiff]
        exact fraction_toNat (by omega) hlost
    · exact BitVec.toInt_ofInt_eq_self (by decide) (by omega) (by omega)

/-- Without it the first report counts too little. -/
theorem Tracks.not_exact (h : Tracks c) (hfirst : c.first % 2 ^ 16 = 0)
    (hnone : c.reported = none) (hfits : c.Fits) (hret : (c.stat.calculate nowTs).1 = 0) :
    ¬ c.Exact nowTs := by
  obtain ⟨hsent, _⟩ := hfits
  have hmax := h.maxId
  have hcircle := circle_eq c
  have hsince : c.since = c.first := by simp [since, hnone]
  have hsize : c.sent = c.top + 1 - c.since := rfl
  rcases calculate_cases c.stat nowTs with ⟨hno, _⟩ | ⟨hset, _, heq⟩
  · rw [hno] at hret
    exact absurd hret (by decide)
  · have hlow := (h.missed hfirst hnone).resolve_left hset
    have hdist : toSigned 32 (c.stat.maxId - c.stat.prevMaxId)
        = c.stat.maxId - c.stat.prevMaxId := toSigned_of_bounds (by omega) (by omega)
    rw [Exact, heq, hdist]
    rintro ⟨_, hnum⟩
    rw [BitVec.toInt_ofInt_eq_self (by decide) (by omega) (by omega)] at hnum
    omega

/-- **A report is exact** exactly if the first number that arrived is not a multiple of
`2 ^ 16`, or a report has been made before. -/
theorem exact_iff_of_run {es : List LossOp} (h : Run Step init es c) (hfits : c.Fits)
    (hret : (c.stat.calculate nowTs).1 = 0) :
    c.Exact nowTs ↔ c.first % 2 ^ 16 ≠ 0 ∨ c.reported ≠ none := by
  have hinv : Inv c := h.stateInvariant (.inl rfl) fun _ _ _ hi hs => hi.step hs
  have htracks : Tracks c := by
    rcases hinv with rfl | htracks
    · exact absurd (show (-1 : Int) = 0 from hret) (by decide)
    · exact htracks
  by_cases hbase : c.first % 2 ^ 16 ≠ 0 ∨ c.reported ≠ none
  · exact iff_of_true (htracks.exact hbase hfits hret) hbase
  · simp only [not_or, not_not] at hbase
    refine iff_of_false (htracks.not_exact hbase.1 hbase.2 hfits hret) ?_
    simp only [not_or, not_not]
    exact hbase

/-- The statistics after some numbers. -/
def after (ss : List Nat) : LossRun :=
  ⟨ss.foldl (fun stat s => stat.incoming (Unwrapper.low16 s)) .init, ss, none⟩

/-- The numbers `s`, `s + 1` and `s + 21` arrive. -/
def threeArrive (s : Nat) : LossRun := after [s, s + 1, s + 21]

theorem threeArrive_run (s : Nat) :
    Run Step init [.incoming s, .incoming (s + 1), .incoming (s + 21)] (threeArrive s) := by
  have hone : Run Step init [.incoming s] (after [s]) := .snoc .nil ⟨trivial, rfl⟩
  have htwo : Run Step init [.incoming s, .incoming (s + 1)] (after [s, s + 1]) :=
    hone.snoc ⟨show s < s + 1 ∧ s + 1 < s + 2 ^ 15 by omega, rfl⟩
  exact htwo.snoc ⟨show s + 1 < s + 21 ∧ s + 21 < s + 1 + 2 ^ 15 by omega, rfl⟩

theorem exact_iff_of_run_one :
    (threeArrive 1).Exact 1000 ↔
      (threeArrive 1).first % 2 ^ 16 ≠ 0 ∨ (threeArrive 1).reported ≠ none :=
  exact_iff_of_run (threeArrive_run 1) ⟨by decide, by decide⟩ (by decide)

/-- A stream that starts at `0`: the first report is about 21 numbers, not 22. -/
theorem not_exact_zero :
    ¬ ∀ es c nowTs, Run Step init es c → (c.stat.calculate nowTs).1 = 0 → c.Exact nowTs := by
  intro h
  exact absurd (h _ (threeArrive 0) 1000 (threeArrive_run 0) (by decide)) (by decide)

end LossRun

end Razor
