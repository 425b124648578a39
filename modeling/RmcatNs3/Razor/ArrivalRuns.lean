import RmcatNs3.Lib.Runs
import RmcatNs3.Razor.ProxySteps

/-!
# Which arrivals are lost

Runs of arrivals and feedbacks. An entry of `arrival_times` is safe once a
feedback has reported it; until then it has to stay. It does, unless it is the
only entry of the window and an arrival overtakes it after 500 ms: the cull
then runs, because the newest arrival is not behind the start of the window.
-/

namespace Razor

open Runs EstimatorProxy

/-- The proxy, every entry that has ever been in `arrival_times`, and the
entries that feedbacks have reported. -/
structure ProxyRun where
  proxy : EstimatorProxy
  recorded : List (Int × Int)
  reported : List (Int × Int)

inductive ProxyOp where
  | incoming (arrivalTs : Int) (ssrc : BitVec 32) (seq : TransportSeq)
  | bulidFeelbackPacket (msg : FeedbackMsg)

namespace ProxyRun

def create (ssrc : BitVec 32) : ProxyRun := ⟨.create ssrc, [], []⟩

/-- One call. Arrivals are not below the start of the window. -/
def Step (c : ProxyRun) : ProxyOp → ProxyRun → Prop
  | .incoming arrivalTs ssrc seq, c' =>
      c.proxy.wndStartSeq ≤ c.proxy.unwrapped seq ∧
      c' = { c with
        proxy := c.proxy.incoming arrivalTs ssrc seq
        recorded := c.recorded ++
          (c.proxy.incoming arrivalTs ssrc seq).arrivalTimes.toList }
  | .bulidFeelbackPacket msg, c' =>
      ∃ ret proxy msg', c.proxy.bulidFeelbackPacket msg = some (ret, proxy, msg') ∧
        c' = { c with
          proxy
          reported := if ret = 0 then c.reported ++ c.proxy.reportable else c.reported }

/-- Every recorded entry has been reported, or is waiting for the next
feedback. -/
def NothingLost (c : ProxyRun) : Prop :=
  ∀ b ∈ c.recorded, b ∈ c.reported ∨ b ∈ c.proxy.pending

/-- An arrival overtakes the only waiting entry, at the start of the window,
after 500 ms, and the cull reaches this entry. -/
def Overtakes (proxy : EstimatorProxy) (arrivalTs : Int) (seq : TransportSeq) : Prop :=
  0 ≤ arrivalTs ∧ proxy.maxArrivalSeq = proxy.wndStartSeq ∧
  proxy.wndStartSeq < proxy.unwrapped seq ∧
  proxy.unwrapped seq ≤ proxy.wndStartSeq + 32767 ∧
  (∃ ts, (proxy.wndStartSeq, ts) ∈ proxy.arrivalTimes ∧ ts + backWindowsMs ≤ arrivalTs) ∧
  (proxy.arrivalTimes.toList.filter fun a =>
    decide (a.1 < proxy.wndStartSeq ∧ a.2 + backWindowsMs ≤ arrivalTs)).length < maxIdsNum

/-- The calls that lose nothing. -/
def Safe (c : ProxyRun) : ProxyOp → Prop
  | .incoming arrivalTs _ seq => ¬ Overtakes c.proxy arrivalTs seq
  | .bulidFeelbackPacket _ => True

/-- What holds after every run. -/
structure Inv (c : ProxyRun) : Prop where
  lastValue : 0 ≤ c.proxy.unwrapper.lastValue
  start : -1 ≤ c.proxy.wndStartSeq
  fresh : c.proxy.wndStartSeq = -1 → c.proxy.arrivalTimes.toList = []
  newest : ∀ b ∈ c.proxy.arrivalTimes, b.1 ≤ c.proxy.maxArrivalSeq
  reported : ∀ b ∈ c.reported, b.1 < c.proxy.wndStartSeq
  recorded : ∀ b ∈ c.proxy.arrivalTimes, b ∈ c.recorded

theorem create_inv (ssrc : BitVec 32) : Inv (create ssrc) :=
  ⟨le_refl 0, le_refl (-1), fun _ => rfl, nofun, nofun, nofun⟩

variable {c c' : ProxyRun}

/-! ## Arrivals -/

/-- An unwrapped number is not below its low bits. -/
theorem Inv.unwrapped_range (h : Inv c) (seq : TransportSeq) :
    0 ≤ c.proxy.unwrapped seq ∧ (seq : Int) ≤ c.proxy.unwrapped seq := by
  obtain ⟨h0, hmod⟩ := Unwrapper.wrap16Update_range h.lastValue seq
  refine ⟨h0, ?_⟩
  show (seq : Int) ≤ c.proxy.unwrapper.wrap16Update seq
  omega

/-- The window does not move back, and starts at the first arrival. -/
theorem Inv.wndStartSeq_recording (h : Inv c) (arrivalTs : Int) (ssrc : BitVec 32)
    {seq : TransportSeq} (hseq : c.proxy.wndStartSeq ≤ c.proxy.unwrapped seq) :
    (c.proxy.wndStartSeq = -1 ∧ (c.proxy.recording arrivalTs ssrc seq).wndStartSeq = seq ∨
      0 ≤ c.proxy.wndStartSeq ∧
        (c.proxy.recording arrivalTs ssrc seq).wndStartSeq = c.proxy.wndStartSeq) ∧
    (c.proxy.recording arrivalTs ssrc seq).wndStartSeq ≤ c.proxy.unwrapped seq := by
  have hrange := h.unwrapped_range seq
  have hstart := h.start
  unfold recording
  simp only
  split_ifs with hfirst
  · exact ⟨.inl ⟨hfirst, rfl⟩, hrange.2⟩
  · exact ⟨.inr ⟨by omega, min_eq_left hseq⟩, min_le_right ..⟩

theorem mem_recording {proxy : EstimatorProxy} {arrivalTs : Int} {ssrc : BitVec 32}
    {seq : TransportSeq} {b : Int × Int}
    (hb : b ∈ (proxy.recording arrivalTs ssrc seq).arrivalTimes) :
    b ∈ proxy.arrivalTimes ∧ b ∉ proxy.culled (proxy.unwrapped seq) arrivalTs ∨
      b = (proxy.unwrapped seq, arrivalTs) := by
  rcases SortedMap.mem_insert.mp hb with hb | ⟨_, hb⟩
  · exact .inl (mem_kept.mp hb)
  · exact .inr hb

/-- An entry that is not culled stays. -/
theorem mem_recording_of_kept {proxy : EstimatorProxy} {arrivalTs : Int}
    (ssrc : BitVec 32) {seq : TransportSeq} {b : Int × Int} (hb : b ∈ proxy.arrivalTimes)
    (hkept : b ∉ proxy.culled (proxy.unwrapped seq) arrivalTs) :
    b ∈ (proxy.recording arrivalTs ssrc seq).arrivalTimes :=
  SortedMap.mem_insert.mpr (.inl (mem_kept.mpr ⟨hb, hkept⟩))

theorem Inv.incoming (h : Inv c) {arrivalTs : Int} {ssrc : BitVec 32} {seq : TransportSeq}
    (hstep : Step c (.incoming arrivalTs ssrc seq) c') : Inv c' := by
  obtain ⟨hseq, rfl⟩ := hstep
  have hunw := h.unwrapped_range seq
  have hrec : ∀ p : EstimatorProxy, ∀ b ∈ p.arrivalTimes,
      b ∈ c.recorded ++ p.arrivalTimes.toList :=
    fun p b hb => List.mem_append_right _ hb
  rcases c.proxy.incoming_cases arrivalTs ssrc seq with
    ⟨_, heq⟩ | ⟨_, _, heq⟩ | ⟨_, _, heq⟩
  · rw [heq]
    exact ⟨h.lastValue, h.start, h.fresh, h.newest, h.reported, hrec _⟩
  · rw [heq]
    exact ⟨hunw.1, h.start, h.fresh, h.newest, h.reported, hrec _⟩
  · rw [heq]
    have hwnd := (h.wndStartSeq_recording arrivalTs ssrc hseq).1
    refine ⟨hunw.1, ?_, ?_, ?_, ?_, hrec _⟩
    · show -1 ≤ (c.proxy.recording arrivalTs ssrc seq).wndStartSeq
      omega
    · intro hfirst
      change (c.proxy.recording arrivalTs ssrc seq).wndStartSeq = -1 at hfirst
      omega
    · intro b hb
      show b.1 ≤ max c.proxy.maxArrivalSeq (c.proxy.unwrapped seq)
      rcases mem_recording hb with ⟨hb, _⟩ | rfl
      · exact le_max_of_le_left (h.newest b hb)
      · exact le_max_right ..
    · intro b hb
      have hlt := h.reported b hb
      show b.1 < (c.proxy.recording arrivalTs ssrc seq).wndStartSeq
      omega

/-! ## Feedback -/

/-- The next window starts behind everything that has been reported. -/
theorem Inv.lt_startBehind (h : Inv c) (hne : c.proxy.reportable ≠ []) :
    c.proxy.wndStartSeq < startBehind (-1) c.proxy.reportable ∧
      0 ≤ startBehind (-1) c.proxy.reportable := by
  obtain ⟨b, hb, heq⟩ := startBehind_eq (n := -1) hne
  obtain ⟨hmem, hle⟩ := mem_reportable hb
  have hstart := h.start
  have hfirst : c.proxy.wndStartSeq ≠ -1 := by
    intro hfirst
    rw [SortedMap.mem_def, h.fresh hfirst] at hmem
    cases hmem
  omega

/-- A waiting entry that does not fit lies behind the next window's start. -/
theorem startBehind_le {proxy : EstimatorProxy} {b : Int × Int} (hb : b ∈ proxy.pending)
    (hout : b ∉ proxy.reportable) (hne : proxy.reportable ≠ []) :
    startBehind (-1) proxy.reportable ≤ b.1 := by
  obtain ⟨a, ha, heq⟩ := startBehind_eq (n := -1) hne
  have hsorted := proxy.pending_sorted
  rw [← List.take_append_drop maxFeelbackCount proxy.pending] at hb hsorted
  have hdrop := (List.mem_append.mp hb).resolve_left hout
  have hlt := (List.pairwise_append.mp hsorted).2.2 a ha b hdrop
  omega

theorem Inv.bulid (h : Inv c) {msg : FeedbackMsg}
    (hstep : Step c (.bulidFeelbackPacket msg) c') : Inv c' := by
  obtain ⟨ret, proxy, msg', hbulid, rfl⟩ := hstep
  obtain ⟨_, _, _, heq, _, hcases⟩ := bulid_cases c.proxy msg
  rw [hbulid, Option.some.injEq, Prod.mk.injEq, Prod.mk.injEq] at heq
  obtain ⟨rfl, rfl, rfl⟩ := heq
  rcases hcases with ⟨rfl, rfl, _⟩ | ⟨rfl, hmany, rfl, _, _⟩
  · exact ⟨h.lastValue, h.start, h.fresh, h.newest, h.reported, h.recorded⟩
  · have hne : c.proxy.reportable ≠ [] := List.ne_nil_of_length_pos (by omega)
    obtain ⟨hlt, h0⟩ := h.lt_startBehind hne
    refine ⟨h.lastValue, ?_, ?_, h.newest, ?_, h.recorded⟩
    · show -1 ≤ startBehind (-1) c.proxy.reportable
      omega
    · intro hfirst
      change startBehind (-1) c.proxy.reportable = -1 at hfirst
      omega
    · intro b hb
      show b.1 < startBehind (-1) c.proxy.reportable
      rw [if_pos rfl] at hb
      rcases List.mem_append.mp hb with hb | hb
      · exact (h.reported b hb).trans hlt
      · exact EstimatorProxy.lt_startBehind (c.proxy.pending_sorted.sublist
          (List.take_sublist ..)) hb

theorem Inv.step (h : Inv c) {op : ProxyOp} (hstep : Step c op c') : Inv c' := by
  cases op with
  | incoming arrivalTs ssrc seq => exact h.incoming hstep
  | bulidFeelbackPacket msg => exact h.bulid hstep

/-! ## Safe calls -/

/-- What a cull takes out of the window is what the arrival overtakes. -/
theorem Inv.overtakes_of_culled (h : Inv c) {arrivalTs : Int} {seq : TransportSeq}
    (h0 : 0 ≤ arrivalTs) (hnear : c.proxy.unwrapped seq ≤ c.proxy.wndStartSeq + 32767)
    {b : Int × Int} (hb : b ∈ c.proxy.pending)
    (hcut : b ∈ c.proxy.culled (c.proxy.unwrapped seq) arrivalTs) :
    Overtakes c.proxy arrivalTs seq := by
  obtain ⟨hmem, hle⟩ := mem_pending.mp hb
  obtain ⟨hmax, _, hdue, hrank⟩ := mem_culled.mp hcut
  have hnewest := h.newest b hmem
  have hstart : b.1 = c.proxy.wndStartSeq := by omega
  obtain ⟨hlt, hage⟩ := hdue
  refine ⟨h0, by omega, by omega, hnear, ⟨b.2, ?_, hage⟩, ?_⟩
  · rwa [← hstart]
  · refine lt_of_le_of_lt (List.Sublist.length_le ?_) hrank
    refine List.monotone_filter_right _ fun a ha => ?_
    simp only [decide_eq_true_eq] at ha ⊢
    refine ⟨by omega, by omega, ha.2⟩

/-- **A safe call** loses nothing. -/
theorem NothingLost.step (hlost : NothingLost c) (h : Inv c) {op : ProxyOp}
    (hsafe : Safe c op) (hstep : Step c op c') : NothingLost c' := by
  cases op with
  | incoming arrivalTs ssrc seq =>
      obtain ⟨hseq, rfl⟩ := hstep
      rcases c.proxy.incoming_cases arrivalTs ssrc seq with
        ⟨_, heq⟩ | ⟨_, _, heq⟩ | ⟨h0, hnear, heq⟩
      · rw [heq]
        intro b hb
        exact hlost b ((List.mem_append.mp hb).elim id (h.recorded b))
      · rw [heq]
        intro b hb
        exact hlost b ((List.mem_append.mp hb).elim id (h.recorded b))
      · rw [heq]
        obtain ⟨hwnd, hle⟩ := h.wndStartSeq_recording arrivalTs ssrc hseq
        -- an old entry is reported, or it waits and is not culled
        have hold : ∀ b ∈ c.recorded, b ∈ c.reported ∨
            b ∈ (c.proxy.recording arrivalTs ssrc seq).pending := by
          intro b hb
          rcases hlost b hb with hrep | hpend
          · exact .inl hrep
          · right
            obtain ⟨hmem, hstart⟩ := mem_pending.mp hpend
            have hkept : b ∉ c.proxy.culled (c.proxy.unwrapped seq) arrivalTs :=
              fun hcut => hsafe (h.overtakes_of_culled h0 hnear hpend hcut)
            refine mem_pending.mpr ⟨mem_recording_of_kept ssrc hmem hkept, ?_⟩
            rcases hwnd with ⟨hfirst, _⟩ | ⟨_, hsame⟩
            · rw [SortedMap.mem_def, h.fresh hfirst] at hmem
              cases hmem
            · rwa [hsame]
        intro b hb
        rcases List.mem_append.mp hb with hb | hb
        · exact hold b hb
        · rcases mem_recording hb with ⟨hmem, _⟩ | rfl
          · exact hold b (h.recorded b hmem)
          · exact .inr (mem_pending.mpr ⟨hb, hle⟩)
  | bulidFeelbackPacket msg =>
      obtain ⟨ret, proxy, msg', hbulid, rfl⟩ := hstep
      obtain ⟨_, _, _, heq, _, hcases⟩ := bulid_cases c.proxy msg
      rw [hbulid, Option.some.injEq, Prod.mk.injEq, Prod.mk.injEq] at heq
      obtain ⟨rfl, rfl, rfl⟩ := heq
      rcases hcases with ⟨rfl, rfl, _⟩ | ⟨rfl, hmany, rfl, _, _⟩
      · exact hlost
      · have hne : c.proxy.reportable ≠ [] := List.ne_nil_of_length_pos (by omega)
        intro b hb
        rw [if_pos rfl]
        rcases hlost b hb with hrep | hpend
        · exact .inl (List.mem_append_left _ hrep)
        · by_cases hin : b ∈ c.proxy.reportable
          · exact .inl (List.mem_append_right _ hin)
          · exact .inr (mem_pending.mpr ⟨(mem_pending.mp hpend).1,
              startBehind_le hpend hin hne⟩)

/-- **Any other call** loses the entry that it overtakes. -/
theorem Inv.lost_of_overtakes (h : Inv c) {arrivalTs : Int} {ssrc : BitVec 32}
    {seq : TransportSeq} (hover : Overtakes c.proxy arrivalTs seq)
    (hstep : Step c (.incoming arrivalTs ssrc seq) c') : ¬ NothingLost c' := by
  obtain ⟨hseq, rfl⟩ := hstep
  obtain ⟨h0, hmax, hlt, hnear, ⟨ts, hmem, hage⟩, hrank⟩ := hover
  have hcut : (c.proxy.wndStartSeq, ts) ∈
      c.proxy.culled (c.proxy.unwrapped seq) arrivalTs := by
    refine mem_culled.mpr ⟨le_of_eq hmax, hmem, ⟨hlt, hage⟩, ?_⟩
    refine lt_of_le_of_lt (List.Sublist.length_le ?_) hrank
    refine List.monotone_filter_right _ fun a ha => ?_
    simp only [decide_eq_true_eq] at ha ⊢
    exact ⟨ha.1, ha.2.2⟩
  have heq : c.proxy.incoming arrivalTs ssrc seq = c.proxy.recording arrivalTs ssrc seq := by
    rcases c.proxy.incoming_cases arrivalTs ssrc seq with
      ⟨hneg, _⟩ | ⟨_, hfar, _⟩ | ⟨_, _, heq⟩
    · omega
    · omega
    · exact heq
  rw [heq]
  intro hlost
  rcases hlost _ (List.mem_append_left _ (h.recorded _ hmem)) with hrep | hpend
  · exact lt_irrefl _ (h.reported _ hrep)
  · rcases mem_recording (mem_pending.mp hpend).1 with ⟨_, hkept⟩ | hnew
    · exact hkept hcut
    · rw [Prod.mk.injEq] at hnew
      omega

/-! ## Runs -/

/-- A call after which nothing is lost. -/
def LosslessStep (c : ProxyRun) (op : ProxyOp) (c' : ProxyRun) : Prop :=
  Step c op c' ∧ NothingLost c'

def SafeStep (c : ProxyRun) (op : ProxyOp) (c' : ProxyRun) : Prop :=
  Step c op c' ∧ Safe c op

theorem inv_of_run {ssrc : BitVec 32} {ops : List ProxyOp}
    (hrun : Run Step (create ssrc) ops c) : Inv c :=
  hrun.stateInvariant (create_inv ssrc) fun _ _ _ h hstep => h.step hstep

theorem nothingLost_of_run {ssrc : BitVec 32} {ops : List ProxyOp}
    (hrun : Run LosslessStep (create ssrc) ops c) : NothingLost c :=
  hrun.stateInvariant (I := NothingLost) (fun _ hb => absurd hb List.not_mem_nil)
    fun _ _ _ _ hstep => hstep.2

/-- **Arrivals are not lost, exactly as long as none is overtaken.** The runs in
which every recorded entry is, in every state, reported or waiting for the next
feedback are those whose calls are all safe; and a feedback that is built
reports the first 128 entries that wait. -/
theorem lossless_iff_safe {ssrc : BitVec 32} {ops : List ProxyOp} :
    (Run LosslessStep (create ssrc) ops c ↔ Run SafeStep (create ssrc) ops c) ∧
    ∀ msg proxy msg', c.proxy.bulidFeelbackPacket msg = some (0, proxy, msg') →
      Reports msg' (c.proxy.pending.take maxFeelbackCount) := by
  refine ⟨⟨fun hrun => ?_, fun hrun => ?_⟩, ?_⟩
  · induction hrun with
    | nil => exact .nil
    | @snoc es s e s' hr hs ih =>
        refine .snoc ih ⟨hs.1, ?_⟩
        have hinv := inv_of_run (hr.mono fun _ _ _ h => h.1)
        cases e with
        | incoming arrivalTs ssrc seq =>
            exact fun hover => hinv.lost_of_overtakes hover hs.1 hs.2
        | bulidFeelbackPacket msg => trivial
  · induction hrun with
    | nil => exact .nil
    | @snoc es s e s' hr hs ih =>
        have hinv := inv_of_run (hr.mono fun _ _ _ h => h.1)
        exact .snoc ih ⟨hs.1, (nothingLost_of_run ih).step hinv hs.2 hs.1⟩
  · intro msg proxy msg' hbulid
    obtain ⟨_, _, _, heq, _, hcases⟩ := bulid_cases c.proxy msg
    rw [hbulid, Option.some.injEq, Prod.mk.injEq, Prod.mk.injEq] at heq
    obtain ⟨rfl, rfl, rfl⟩ := heq
    rcases hcases with ⟨h, _⟩ | ⟨_, _, _, _, hreports⟩
    · cases h
    · exact hreports

/-- The second arrival, 500 ms after the first, takes it out unreported. -/
theorem first_arrival_lost : ∃ c, Run Step (create 0)
      [.incoming 0 0 0, .incoming 500 0 1] c ∧
    (0, 0) ∈ c.recorded ∧ (0, 0) ∉ c.reported ∧ (0, 0) ∉ c.proxy.arrivalTimes.toList := by
  refine ⟨_, .snoc (.snoc .nil ⟨?_, rfl⟩) ⟨?_, rfl⟩, ?_, ?_, ?_⟩
  all_goals decide

end ProxyRun

end Razor
