import Mathlib.Order.Bounds.Basic
import RmcatNs3.Lib.BitWindow
import RmcatNs3.Scream.ScreamRx

/-!
# The ACK vector

Packets are numbered without wrap-around here; the code sees these numbers modulo
`2 ^ 16`. `ScreamRx` behaves as if the number before the first one had been received
too, and a number that is the highest one when the edge moves up by 64 never
gets the last bit of the vector. Apart from that the vector is exact.
-/

namespace Scream

open MachineInt BitWindow

inductive RxEvent where
  | receive (time_us : Nat) (ssrc : BitVec 32) (size seq : Int) (isEcnCe : Bool)
  | getFeedback (time_us : Nat)

namespace ScreamRx

def step (s : ScreamRx) : RxEvent → ScreamRx
  | .receive time_us ssrc size seq isEcnCe =>
      s.receive time_us ssrc size (BitVec.ofInt 16 seq) isEcnCe
  | .getFeedback time_us => (s.getFeedback time_us).2

/-- The receiver after some events. -/
def after (ssrc : BitVec 32) (es : List RxEvent) : ScreamRx := es.foldl step (new ssrc)

def stream? (s : ScreamRx) (ssrc : BitVec 32) : Option Stream :=
  s.streams.find? (·.isMatch ssrc)

end ScreamRx

/-- The numbers received on a stream, oldest first. -/
def received (ssrc : BitVec 32) : List RxEvent → List Int
  | [] => []
  | .receive _ source _ seq _ :: es =>
      if source = ssrc then seq :: received ssrc es else received ssrc es
  | .getFeedback _ :: es => received ssrc es

/-- The highest number of a list and of one before it. -/
def highest (b : Int) (xs : List Int) : Int := xs.foldl max b

/-- The code finds out on which side of the highest number this one lies. -/
def InWindow (h x : Int) : Prop :=
  h - 16384 ≤ x ∧ (x ≤ h + 16384 ∨ x < h + 32768 ∧ x % 65536 < h % 65536)

/-- Every number is seen on the right side of the highest one. -/
def AllInWindow : Int → List Int → Prop
  | _, [] => True
  | h, x :: xs => InWindow h x ∧ AllInWindow (max h x) xs

/-- The number was received, and at some time lay in the window below the highest
number, the last place excepted. -/
def Marked (b : Int) (xs : List Int) (n : Int) : Prop :=
  ∃ p, p <+: xs ∧ n ∈ b :: p ∧ n < highest b p ∧ highest b p < n + 64

/-! ## Numbers -/

@[simp] theorem highest_nil (b : Int) : highest b [] = b := rfl

@[simp] theorem highest_concat (b : Int) (xs : List Int) (x : Int) :
    highest b (xs ++ [x]) = max (highest b xs) x := by
  simp [highest]

theorem le_highest {b : Int} {xs : List Int} {x : Int} (h : x ∈ b :: xs) :
    x ≤ highest b xs := by
  induction xs using List.reverseRecOn with
  | nil =>
      obtain rfl := List.mem_singleton.mp h
      exact le_refl _
  | append_singleton xs y ih =>
      rw [highest_concat]
      rcases List.mem_append.mp (List.cons_append ▸ h) with h | h
      · exact le_max_of_le_left (ih h)
      · obtain rfl := List.mem_singleton.mp h
        exact le_max_right _ _

theorem highest_mem (b : Int) (xs : List Int) : highest b xs ∈ b :: xs := by
  induction xs using List.reverseRecOn with
  | nil => exact List.mem_singleton_self b
  | append_singleton xs y ih =>
      rw [highest_concat]
      rcases max_choice (highest b xs) y with h | h
      · rw [h]
        exact List.mem_append_left [y] ih
      · rw [h]
        simp

theorem allInWindow_concat {b x : Int} {xs : List Int} :
    AllInWindow b (xs ++ [x]) ↔ AllInWindow b xs ∧ InWindow (highest b xs) x := by
  induction xs generalizing b with
  | nil => simp [AllInWindow]
  | cons y ys ih =>
      simp only [List.cons_append, AllInWindow, ih, and_assoc]
      rfl

theorem marked_nil {b n : Int} : ¬ Marked b [] n := by
  rintro ⟨p, hp, hmem, hlt, _⟩
  obtain rfl := List.prefix_nil.mp hp
  obtain rfl := List.mem_singleton.mp hmem
  exact lt_irrefl _ hlt

theorem marked_concat {b x n : Int} {xs : List Int} :
    Marked b (xs ++ [x]) n ↔ Marked b xs n ∨
      (n ∈ b :: (xs ++ [x]) ∧ n < highest b (xs ++ [x]) ∧ highest b (xs ++ [x]) < n + 64) := by
  constructor
  · rintro ⟨p, hp, hn⟩
    rcases List.prefix_concat_iff.mp hp with rfl | hp
    · exact .inr hn
    · exact .inl ⟨p, hp, hn⟩
  · rintro (⟨p, hp, hn⟩ | hn)
    · exact ⟨p, hp.trans (List.prefix_append xs [x]), hn⟩
    · exact ⟨xs ++ [x], List.prefix_refl _, hn⟩

theorem Marked.mem {b n : Int} {xs : List Int} (h : Marked b xs n) : n ∈ b :: xs := by
  obtain ⟨p, hp, hmem, _⟩ := h
  rcases List.mem_cons.mp hmem with rfl | hmem
  · exact List.mem_cons_self
  · exact List.mem_cons_of_mem _ (hp.subset hmem)

/-- Numbers that were received are marked while they are near the highest one. -/
theorem marked_of_near {b n : Int} {xs : List Int} (hmem : n ∈ b :: xs)
    (hlt : n < highest b xs) (hnear : highest b xs < n + 64) : Marked b xs n :=
  ⟨xs, List.prefix_refl _, hmem, hlt, hnear⟩

section Concat

variable {b x n : Int} {xs : List Int}

theorem highest_mono {p : List Int} (hp : p <+: xs) : highest b p ≤ highest b xs := by
  apply le_highest
  rcases List.mem_cons.mp (highest_mem b p) with heq | hmem
  · rw [heq]
    exact List.mem_cons_self
  · exact List.mem_cons_of_mem _ (hp.subset hmem)

theorem mem_cons_concat : n ∈ b :: (xs ++ [x]) ↔ n ∈ b :: xs ∨ n = x := by
  simp [or_assoc]

/-- A number is not marked before another one is above it. -/
theorem Marked.lt_highest (h : Marked b xs n) : n < highest b xs := by
  obtain ⟨p, hp, _, hlt, _⟩ := h
  exact lt_of_lt_of_le hlt (highest_mono hp)

theorem marked_late (hlt : x < highest b xs) :
    Marked b (xs ++ [x]) n ↔ Marked b xs n ∨ (n = x ∧ highest b xs < x + 64) := by
  rw [marked_concat, highest_concat, max_eq_left (le_of_lt hlt), mem_cons_concat]
  constructor
  · rintro (hn | ⟨hmem | rfl, hn, hnear⟩)
    · exact .inl hn
    · exact .inl (marked_of_near hmem hn hnear)
    · exact .inr ⟨rfl, hnear⟩
  · rintro (hn | ⟨rfl, hnear⟩)
    · exact .inl hn
    · exact .inr ⟨.inr rfl, hlt, hnear⟩

theorem marked_again : Marked b (xs ++ [highest b xs]) n ↔ Marked b xs n := by
  rw [marked_concat, highest_concat, max_self, mem_cons_concat]
  refine or_iff_left_of_imp ?_
  rintro ⟨hmem | rfl, hn, hnear⟩
  · exact marked_of_near hmem hn hnear
  · exact absurd hn (lt_irrefl _)

/-- When the edge moves up to `x`, the old edge is marked if `x` is near it. -/
theorem marked_forward (hgt : highest b xs < x) (hn : x - 64 ≤ n) (hnx : n < x) :
    Marked b (xs ++ [x]) n ↔ (n < highest b xs ∧ Marked b xs n) ∨
      (n = highest b xs ∧ x < highest b xs + 64) := by
  rw [marked_concat, highest_concat, max_eq_right (le_of_lt hgt), mem_cons_concat]
  constructor
  · rintro (hmark | ⟨hmem | rfl, _, hnear⟩)
    · exact .inl ⟨hmark.lt_highest, hmark⟩
    · rcases lt_or_eq_of_le (le_highest hmem) with hlt | rfl
      · exact .inl ⟨hlt, marked_of_near hmem hlt (by omega)⟩
      · exact .inr ⟨rfl, hnear⟩
    · exact absurd hnx (lt_irrefl _)
  · rintro (⟨_, hmark⟩ | ⟨rfl, hnear⟩)
    · exact .inl hmark
    · exact .inr ⟨.inl (highest_mem b xs), hnx, hnear⟩

end Concat

namespace Stream

/-! ## One packet -/

section Update

variable {h x : Int} {v : BitVec 64}

theorem ofInt_toNat (x : Int) : ((BitVec.ofInt 16 x).toNat : Int) = x % 65536 := by
  rw [BitVec.toNat_ofInt]
  omega

/-- Extended numbers differ as the true ones do. -/
theorem seqNrExt_sub (hx : InWindow h x) :
    (seqNrExt (BitVec.ofInt 16 x) (BitVec.ofInt 16 h) : Int)
      - highestSeqNrExt (BitVec.ofInt 16 x) (BitVec.ofInt 16 h) = x - h := by
  have hxn := ofInt_toNat x
  have hhn := ofInt_toNat h
  unfold InWindow at hx
  unfold seqNrExt highestSeqNrExt
  simp only [BitVec.lt_def]
  split <;> split <;> omega

theorem update_same : update (BitVec.ofInt 16 h) (BitVec.ofInt 16 h) v
    = (BitVec.ofInt 16 h, v) := by
  simp [update, seqNrExt, highestSeqNrExt, toUnsigned]

/-- A packet above the highest one. -/
theorem update_forward {d : Nat} (hx : InWindow h x) (hd : x - h = d) (hpos : 0 < d) :
    update (BitVec.ofInt 16 h) (BitVec.ofInt 16 x) v
      = (BitVec.ofInt 16 x, if d ≥ 64 then 0 else v <<< d ||| 1#64 <<< (d - 1)) := by
  have hsub := seqNrExt_sub hx
  have hdiff := @toUnsigned_of_lt 16 d (by unfold InWindow at hx; omega)
  unfold update
  simp only [hsub, hd, hdiff, kAckVectorBits]
  rw [if_pos (by omega), if_neg (Nat.ne_of_gt hpos)]

/-- A packet below the highest one. -/
theorem update_late {d : Nat} (hx : InWindow h x) (hd : h - x = d) (hpos : 0 < d) :
    update (BitVec.ofInt 16 h) (BitVec.ofInt 16 x) v
      = (BitVec.ofInt 16 h, if d < 64 then v ||| 1#64 <<< (d - 1) else v) := by
  have hsub := seqNrExt_sub hx
  have hdiff := @toUnsigned_of_lt 16 d (by unfold InWindow at hx; omega)
  have hback : (highestSeqNrExt (BitVec.ofInt 16 x) (BitVec.ofInt 16 h) : Int)
      - seqNrExt (BitVec.ofInt 16 x) (BitVec.ofInt 16 h) = d := by omega
  unfold update
  simp only [hback, hdiff, kAckVectorBits]
  rw [if_neg (by omega)]

/-- A jump too far to be seen as one is taken for a late packet. -/
theorem update_jump (hlt : h < x) (hx : x < h + 32768) (hout : ¬ InWindow h x) :
    (update (BitVec.ofInt 16 h) (BitVec.ofInt 16 x) v).1 = BitVec.ofInt 16 h := by
  have hxn := ofInt_toNat x
  have hhn := ofInt_toNat h
  unfold InWindow at hout
  unfold update
  simp only
  rw [if_neg]
  unfold seqNrExt highestSeqNrExt
  simp only [BitVec.lt_def]
  split <;> split <;> omega

end Update

/-- The stream after the numbers `xs`, if `b` counts as received before them. -/
structure Tracks (b : Int) (xs : List Int) (highestSeqNr : BitVec 16) (ackVector : BitVec 64) :
    Prop where
  highest : highestSeqNr = BitVec.ofInt 16 (highest b xs)
  vector : Shows ackVector (Scream.highest b xs) (Marked b xs)

theorem Tracks.nil (b : Int) : Tracks b [] (BitVec.ofInt 16 b) 0 where
  highest := rfl
  vector := Shows.zero fun _ _ _ => marked_nil

variable {b x : Int} {xs : List Int} {seqNr : BitVec 16} {v : BitVec 64}

theorem Tracks.late (h : Tracks b xs seqNr v) (hx : InWindow (Scream.highest b xs) x)
    (hlt : x < Scream.highest b xs) :
    Tracks b (xs ++ [x]) (update seqNr (BitVec.ofInt 16 x) v).1
      (update seqNr (BitVec.ofInt 16 x) v).2 := by
  obtain ⟨rfl, hvector⟩ := h
  have hmax : Scream.highest b (xs ++ [x]) = Scream.highest b xs := by
    rw [highest_concat, max_eq_left (le_of_lt hlt)]
  obtain ⟨d, hd⟩ := Int.eq_ofNat_of_zero_le (show 0 ≤ Scream.highest b xs - x by omega)
  rw [update_late hx hd (by omega)]
  refine ⟨by rw [hmax], ?_⟩
  rw [hmax]
  by_cases hnear : d < 64
  · rw [if_pos hnear]
    refine (hvector.mark (by omega)).congr fun n _ _ => ?_
    rw [marked_late hlt]
    apply or_congr_right
    omega
  · rw [if_neg hnear]
    refine hvector.congr fun n _ _ => ?_
    rw [marked_late hlt]
    exact (or_iff_left (by omega)).symm

theorem Tracks.again (h : Tracks b xs seqNr v) :
    Tracks b (xs ++ [Scream.highest b xs])
      (update seqNr (BitVec.ofInt 16 (Scream.highest b xs)) v).1
      (update seqNr (BitVec.ofInt 16 (Scream.highest b xs)) v).2 := by
  obtain ⟨rfl, hvector⟩ := h
  have hmax : Scream.highest b (xs ++ [Scream.highest b xs]) = Scream.highest b xs := by
    rw [highest_concat, max_self]
  rw [update_same]
  refine ⟨by rw [hmax], ?_⟩
  rw [hmax]
  exact hvector.congr fun n _ _ => marked_again.symm

/-- A new highest packet: the window slides, and shows the old highest one if it can. -/
theorem Tracks.forward (h : Tracks b xs seqNr v) (hx : InWindow (Scream.highest b xs) x)
    (hgt : Scream.highest b xs < x) :
    Tracks b (xs ++ [x]) (update seqNr (BitVec.ofInt 16 x) v).1
      (update seqNr (BitVec.ofInt 16 x) v).2 := by
  obtain ⟨rfl, hvector⟩ := h
  have hmax : Scream.highest b (xs ++ [x]) = x := by
    rw [highest_concat, max_eq_right (le_of_lt hgt)]
  obtain ⟨d, hd⟩ := Int.eq_ofNat_of_zero_le (show 0 ≤ x - Scream.highest b xs by omega)
  rw [update_forward hx hd (by omega)]
  refine ⟨by rw [hmax], ?_⟩
  rw [hmax]
  by_cases hfar : d ≥ 64
  · rw [if_pos hfar]
    refine Shows.zero fun n hn hnx => ?_
    rw [marked_forward hgt hn hnx]
    omega
  · rw [if_neg hfar]
    have hat : x = Scream.highest b xs + d := by omega
    have hslide := hvector.slide (show 0 < d by omega)
    rw [← hat] at hslide
    refine hslide.congr fun n hn hnx => ?_
    rw [marked_forward hgt hn hnx]
    apply or_congr_right
    omega

/-- **One reception** in the window keeps the vector on track. -/
theorem Tracks.update (h : Tracks b xs seqNr v) (hx : InWindow (Scream.highest b xs) x) :
    Tracks b (xs ++ [x]) (update seqNr (BitVec.ofInt 16 x) v).1
      (update seqNr (BitVec.ofInt 16 x) v).2 := by
  rcases lt_trichotomy x (Scream.highest b xs) with hlt | rfl | hgt
  · exact h.late hx hlt
  · exact h.again
  · exact h.forward hx hgt

/-- What a stream knows of the numbers that it received. -/
structure Follows (xs : List Int) (s : Stream) : Prop where
  firstReceived : s.firstReceived = true
  nonempty : xs ≠ []
  tracks : ∀ first rest, xs = first :: rest → AllInWindow first rest →
    Tracks (first - 1) xs s.highestSeqNr s.ackVector
  jumped : ∀ first rest x, xs = first :: (rest ++ [x]) → AllInWindow first rest →
    Scream.highest first rest < x → x < Scream.highest first rest + 32768 →
    ¬ InWindow (Scream.highest first rest) x →
    s.highestSeqNr = BitVec.ofInt 16 (Scream.highest first rest)

theorem highest_first (first : Int) (rest : List Int) :
    Scream.highest (first - 1) (first :: rest) = Scream.highest first rest := by
  simp [Scream.highest]

theorem Follows.new (ssrc : BitVec 32) (ix time_us : Nat) (size seq : Int) (isEcnCe : Bool) :
    Follows [seq] ((new ssrc ix).receive time_us size (BitVec.ofInt 16 seq) isEcnCe) where
  firstReceived := rfl
  nonempty := List.cons_ne_nil _ _
  tracks := by
    intro first rest heq _
    obtain ⟨rfl, rfl⟩ := List.cons.inj heq
    have hone : BitVec.ofInt 16 seq - 1 = BitVec.ofInt 16 (seq - 1) := by
      rw [Int.sub_eq_add_neg, BitVec.ofInt_add, BitVec.ofInt_neg, ← BitVec.sub_eq_add_neg]
      rfl
    have hwindow : InWindow (seq - 1) seq := by
      unfold InWindow
      omega
    have htracks := (Tracks.nil (seq - 1)).update hwindow
    rw [← hone] at htracks
    exact htracks
  jumped := by
    intro first rest x heq
    exact absurd (List.cons.inj heq).2.symm (List.append_ne_nil_of_right_ne_nil _ nofun)

theorem Follows.receive {xs : List Int} {s : Stream} (h : Follows xs s) (time_us : Nat)
    (size seq : Int) (isEcnCe : Bool) :
    Follows (xs ++ [seq]) (s.receive time_us size (BitVec.ofInt 16 seq) isEcnCe) where
  firstReceived := rfl
  nonempty := List.append_ne_nil_of_right_ne_nil _ nofun
  tracks := by
    intro first rest heq hall
    obtain ⟨first', rest', rfl⟩ := List.exists_cons_of_ne_nil h.nonempty
    rw [List.cons_append] at heq
    obtain ⟨rfl, rfl⟩ := List.cons.inj heq
    obtain ⟨hall, hwindow⟩ := allInWindow_concat.mp hall
    have htracks := h.tracks _ _ rfl hall
    rw [← highest_first] at hwindow
    unfold Stream.receive
    simp only [h.firstReceived, if_true]
    exact htracks.update hwindow
  jumped := by
    intro first rest x heq hall hlt hx hout
    obtain ⟨first', rest', rfl⟩ := List.exists_cons_of_ne_nil h.nonempty
    rw [List.cons_append] at heq
    obtain ⟨rfl, htail⟩ := List.cons.inj heq
    obtain ⟨rfl, rfl⟩ := List.append_singleton_inj.mp htail
    have htracks := h.tracks _ _ rfl hall
    unfold Stream.receive
    simp only [h.firstReceived, if_true]
    rw [htracks.highest, highest_first]
    exact update_jump hlt hx hout

end Stream

/-! ## All streams -/

namespace ScreamRx

variable {ssrc ssrc' : BitVec 32}

/-- Receiving changes the matching stream only. -/
theorem receiveLoop_find? {f : Stream → Stream} (hf : ∀ s, (f s).ssrc = s.ssrc)
    {streams streams' : List Stream} (h : receiveLoop ssrc f streams = some streams') :
    streams'.find? (·.isMatch ssrc') =
      (streams.find? (·.isMatch ssrc')).map fun s => if ssrc = ssrc' then f s else s := by
  induction streams generalizing streams' with
  | nil => exact absurd h nofun
  | cons s rest ih =>
      unfold receiveLoop at h
      by_cases hmatch : s.isMatch ssrc = true
      · rw [if_pos hmatch] at h
        obtain rfl := Option.some.inj h
        have hssrc : s.ssrc = ssrc := beq_iff_eq.mp hmatch
        have hsame : (f s).isMatch ssrc' = s.isMatch ssrc' := by simp [Stream.isMatch, hf]
        by_cases hother : s.isMatch ssrc' = true
        · have heq : ssrc = ssrc' := hssrc.symm.trans (beq_iff_eq.mp hother)
          simp [hsame, hother, heq]
        · rw [Bool.not_eq_true] at hother
          have hne : ssrc ≠ ssrc' := by
            rintro rfl
            exact absurd (hmatch.symm.trans hother) nofun
          simp [hsame, hother, hne]
      · rw [if_neg hmatch] at h
        obtain ⟨rest', hrest, rfl⟩ := Option.map_eq_some_iff.mp h
        rw [Bool.not_eq_true] at hmatch
        by_cases hother : s.isMatch ssrc' = true
        · have hne : ssrc ≠ ssrc' := by
            rintro rfl
            exact absurd (hother.symm.trans hmatch) nofun
          simp [hother, hne]
        · rw [Bool.not_eq_true] at hother
          simp [hother, ih hrest]

theorem receiveLoop_none {f : Stream → Stream} {streams : List Stream} :
    receiveLoop ssrc f streams = none ↔ streams.find? (·.isMatch ssrc) = none := by
  induction streams with
  | nil => simp [receiveLoop]
  | cons s rest ih =>
      by_cases hmatch : s.isMatch ssrc = true
      · simp [receiveLoop, hmatch]
      · simp [receiveLoop, hmatch, ih]

/-- **Receiving a packet**: its stream receives it, a new one if there is none. -/
theorem receive_stream? (s : ScreamRx) (time_us : Nat) (size : Int) (seqNr : BitVec 16)
    (isEcnCe : Bool) :
    (s.receive time_us ssrc size seqNr isEcnCe).stream? ssrc' =
      if ssrc = ssrc' then
        some (((s.stream? ssrc).getD (.new ssrc s.ix)).receive time_us size seqNr isEcnCe)
      else s.stream? ssrc' := by
  unfold receive
  split
  · rename_i streams hloop
    have hfind := @receiveLoop_find? ssrc ssrc' _ (by intro s; rfl) _ _ hloop
    have hsome : s.stream? ssrc ≠ none := by
      intro hnone
      exact absurd (hloop.symm.trans (receiveLoop_none.mpr hnone)) nofun
    unfold stream? at hsome ⊢
    rw [hfind]
    by_cases heq : ssrc = ssrc'
    · subst heq
      obtain ⟨stream, hstream⟩ := Option.ne_none_iff_exists'.mp hsome
      simp [hstream]
    · simp [heq]
  · rename_i hloop
    have hnone := receiveLoop_none.mp hloop
    have hnew : ((Stream.new ssrc s.ix).receive time_us size seqNr isEcnCe).isMatch ssrc'
        = (ssrc == ssrc') := rfl
    unfold stream?
    by_cases heq : ssrc = ssrc'
    · subst heq
      simp [List.find?_append, hnone, hnew]
    · simp [List.find?_append, hnew, heq]

/-- A function that keeps sources may be applied anywhere in the list. -/
theorem find?_modify {f : Stream → Stream} (hf : ∀ s, (f s).ssrc = s.ssrc)
    (streams : List Stream) (i : Nat) :
    (streams.modify i f).find? (·.isMatch ssrc) = streams.find? (·.isMatch ssrc) ∨
      (streams.modify i f).find? (·.isMatch ssrc) =
        (streams.find? (·.isMatch ssrc)).map f := by
  induction streams generalizing i with
  | nil => simp
  | cons s rest ih =>
      cases i with
      | zero =>
          have hsame : (f s).isMatch ssrc = s.isMatch ssrc := by simp [Stream.isMatch, hf]
          by_cases hmatch : s.isMatch ssrc = true
          · simp [hsame, hmatch]
          · simp [hsame, hmatch]
      | succ i =>
          by_cases hmatch : s.isMatch ssrc = true
          · simp [hmatch]
          · simpa [hmatch] using ih i

/-- Taking feedback changes at most the feedback fields of a stream. -/
theorem getFeedback_stream? (s : ScreamRx) (ssrc : BitVec 32) (time_us : Nat) :
    (s.getFeedback time_us).2.stream? ssrc = s.stream? ssrc ∨
      (s.getFeedback time_us).2.stream? ssrc = (s.stream? ssrc).map fun stream =>
        { stream with
          highestSeqNrTx := stream.highestSeqNr
          lastFeedbackT_us := time_us
          nRtpSinceLastRtcp := 0 } := by
  unfold getFeedback
  split
  · exact .inl rfl
  · exact find?_modify (by intro stream; rfl) s.streams _

theorem received_append (ssrc : BitVec 32) (es es' : List RxEvent) :
    received ssrc (es ++ es') = received ssrc es ++ received ssrc es' := by
  induction es with
  | nil => rfl
  | cons e es ih =>
      cases e with
      | receive time_us source size seq isEcnCe =>
          by_cases heq : source = ssrc
          · simp [received, heq, ih]
          · simp [received, heq, ih]
      | getFeedback time_us => simpa [received] using ih

theorem after_concat (own : BitVec 32) (es : List RxEvent) (e : RxEvent) :
    after own (es ++ [e]) = (after own es).step e := by
  simp [after]

/-- **Every stream follows the numbers received on it**, over any run. -/
theorem after_follows (own ssrc : BitVec 32) (es : List RxEvent) :
    (received ssrc es = [] ∧ (after own es).stream? ssrc = none) ∨
      ∃ stream, (after own es).stream? ssrc = some stream ∧
        stream.Follows (received ssrc es) := by
  induction es using List.reverseRecOn with
  | nil => exact .inl ⟨rfl, rfl⟩
  | append_singleton es e ih =>
      rw [after_concat, received_append]
      cases e with
      | receive time_us source size seq isEcnCe =>
          rw [step, receive_stream?]
          by_cases heq : source = ssrc
          · subst heq
            right
            rw [if_pos rfl]
            refine ⟨_, rfl, ?_⟩
            rcases ih with ⟨hnil, hnone⟩ | ⟨stream, hstream, hfollows⟩
            · rw [hnone, hnil]
              simpa [received] using Stream.Follows.new source _ time_us size seq isEcnCe
            · rw [hstream]
              simpa [received] using hfollows.receive time_us size seq isEcnCe
          · rw [if_neg heq]
            simpa [received, heq] using ih
      | getFeedback time_us =>
          rw [step]
          rcases getFeedback_stream? (after own es) ssrc time_us with hsame | hsame
          · rw [hsame]
            simpa [received] using ih
          · rw [hsame]
            rcases ih with ⟨hnil, hnone⟩ | ⟨stream, hstream, hfollows⟩
            · left
              simp [received, hnil, hnone]
            · right
              refine ⟨_, by rw [hstream, Option.map_some], ?_⟩
              rw [received, received, List.append_nil]
              exact ⟨hfollows.firstReceived, hfollows.nonempty, hfollows.tracks,
                hfollows.jumped⟩

/-! ## Exactness -/

/-- The stream has the highest number received, and bit `k` of its vector is set
exactly if the number `k + 1` below was received. -/
def Exact (own ssrc : BitVec 32) (es : List RxEvent) : Prop :=
  ∃ stream, (after own es).stream? ssrc = some stream ∧
    ∃ top, IsGreatest {x | x ∈ received ssrc es} top ∧
      stream.highestSeqNr = BitVec.ofInt 16 top ∧
      Shows stream.ackVector top (· ∈ received ssrc es)

/-- The number before the first one was received or is out of the window, and the last
number of the window was marked if it was received. -/
def WindowComplete (first : Int) (xs : List Int) : Prop :=
  (first - 1 ∈ xs ∨ first + 64 ≤ highest first xs) ∧
    (highest first xs - 64 ∈ xs → Marked (first - 1) xs (highest first xs - 64))

theorem isGreatest_highest (first : Int) (rest : List Int) :
    IsGreatest {x | x ∈ first :: rest} (highest first (first :: rest)) := by
  have hsame : highest first (first :: rest) = highest first rest := by simp [highest]
  rw [hsame]
  exact ⟨highest_mem first rest, fun x hx => le_highest hx⟩

/-- The marked numbers of the window are the received ones, if it is complete. -/
theorem marked_eq_received_iff (first : Int) (rest : List Int) :
    (∀ n, highest first (first :: rest) - 64 ≤ n → n < highest first (first :: rest) →
      (Marked (first - 1) (first :: rest) n ↔ n ∈ first :: rest)) ↔
    WindowComplete first (first :: rest) := by
  have hhigh : highest (first - 1) (first :: rest) = highest first (first :: rest) := by
    rw [Stream.highest_first]
    simp [highest]
  have hfirst : first ≤ highest first (first :: rest) :=
    (isGreatest_highest first rest).2 List.mem_cons_self
  constructor
  · intro h
    constructor
    · by_contra hnot
      obtain ⟨hunreceived, hnear⟩ := not_or.mp hnot
      have hmarked : Marked (first - 1) (first :: rest) (first - 1) := by
        refine ⟨[first], ⟨rest, rfl⟩, List.mem_cons_self, ?_, ?_⟩
        · simp [highest]
        · simp only [highest, List.foldl_cons, List.foldl_nil]
          omega
      exact hunreceived ((h _ (by omega) (by omega)).mp hmarked)
    · intro hmem
      exact (h _ (le_refl _) (by omega)).mpr hmem
  · rintro ⟨hbefore, hlast⟩ n hn hlt
    constructor
    · intro hmarked
      rcases List.mem_cons.mp hmarked.mem with rfl | hmem
      · rcases hbefore with hmem | hfar
        · exact hmem
        · omega
      · exact hmem
    · intro hmem
      rcases eq_or_lt_of_le hn with rfl | hn
      · exact hlast hmem
      · exact marked_of_near (List.mem_cons_of_mem _ hmem) (hhigh ▸ hlt) (by omega)

theorem exact_iff {own ssrc : BitVec 32} {es : List RxEvent} {first : Int} {rest : List Int}
    (hxs : received ssrc es = first :: rest) (hall : AllInWindow first rest) :
    Exact own ssrc es ↔ WindowComplete first (first :: rest) := by
  rw [← marked_eq_received_iff]
  have hhigh : highest (first - 1) (first :: rest) = highest first (first :: rest) := by
    rw [Stream.highest_first]
    simp [highest]
  rcases after_follows own ssrc es with ⟨hnil, _⟩ | ⟨stream, hstream, hfollows⟩
  · exact absurd (hnil.symm.trans hxs) nofun
  · rw [hxs] at hfollows
    obtain ⟨hseq, hvector⟩ := hfollows.tracks first rest rfl hall
    rw [hhigh] at hseq hvector
    have hgreatest := isGreatest_highest first rest
    unfold Exact
    rw [hxs]
    constructor
    · rintro ⟨stream', hstream', top, htop, _, hshows⟩ n hn hlt
      obtain rfl := Option.some.inj (hstream.symm.trans hstream')
      obtain rfl := htop.unique hgreatest
      have hat : highest first (first :: rest)
          - 1 - ((highest first (first :: rest) - 1 - n).toNat : Int) = n := by omega
      have hmarked := hvector (highest first (first :: rest) - 1 - n).toNat (by omega)
      have hreceived := hshows (highest first (first :: rest) - 1 - n).toNat (by omega)
      rw [hat] at hmarked hreceived
      exact hmarked.symm.trans hreceived
    · intro h
      exact ⟨stream, hstream, _, hgreatest, hseq, hvector.congr h⟩

/-- After a jump that the code takes for a late packet, the highest number is wrong. -/
theorem not_exact_of_jump {own ssrc : BitVec 32} {es : List RxEvent} {first x : Int}
    {rest : List Int} (hxs : received ssrc es = first :: (rest ++ [x]))
    (hall : AllInWindow first rest) (hlt : highest first rest < x)
    (hx : x < highest first rest + 32768) (hout : ¬ InWindow (highest first rest) x) :
    ¬ Exact own ssrc es := by
  rintro ⟨stream', hstream', top, htop, hseq', _⟩
  rcases after_follows own ssrc es with ⟨hnil, _⟩ | ⟨stream, hstream, hfollows⟩
  · exact absurd (hnil.symm.trans hxs) nofun
  · obtain rfl := Option.some.inj (hstream.symm.trans hstream')
    rw [hxs] at hfollows htop
    have hseq := hfollows.jumped first rest x rfl hall hlt hx hout
    have htopx : top = x := by
      have hgreatest := isGreatest_highest first (rest ++ [x])
      rw [htop.unique hgreatest, highest, List.foldl_cons, max_self]
      exact (highest_concat first rest x).trans (max_eq_right (le_of_lt hlt))
    have hsame := congrArg BitVec.toNat (hseq.symm.trans hseq')
    have hold := Stream.ofInt_toNat (highest first rest)
    have hnew := Stream.ofInt_toNat top
    omega

theorem exists_first {ssrc : BitVec 32} {es : List RxEvent} (h : received ssrc es ≠ []) :
    ∃ p, p <+: es ∧ ∃ first, received ssrc p = [first] := by
  induction es with
  | nil => exact absurd rfl h
  | cons e es ih =>
      cases e with
      | receive time_us source size seq isEcnCe =>
          by_cases heq : source = ssrc
          · exact ⟨[.receive time_us source size seq isEcnCe], ⟨es, rfl⟩, seq, by
              simp [received, heq]⟩
          · obtain ⟨p, hp, first, hfirst⟩ := ih (by simpa [received, heq] using h)
            exact ⟨.receive time_us source size seq isEcnCe :: p,
              (List.prefix_cons_inj _).mpr hp, first, by simpa [received, heq] using hfirst⟩
      | getFeedback time_us =>
          obtain ⟨p, hp, first, hfirst⟩ := ih h
          exact ⟨.getFeedback time_us :: p, (List.prefix_cons_inj _).mpr hp, first, hfirst⟩

/-- **The ACK vector**: it is wrong after the first packet of every stream. While every
packet is within reach of the highest one, it is exact if and only if the number before
the first one was received or has left the window, and the number 64 below the highest one
was marked if it was received. Right after the first jump out of reach, of less than 32768,
the highest number is wrong. -/
theorem ackVector_exact_iff (own ssrc : BitVec 32) (es : List RxEvent) :
    ((∀ p, p <+: es → received ssrc p ≠ [] → Exact own ssrc p) ↔ received ssrc es = []) ∧
    (∀ first rest, received ssrc es = first :: rest → AllInWindow first rest →
      (Exact own ssrc es ↔ WindowComplete first (first :: rest))) ∧
    ∀ first rest x, received ssrc es = first :: (rest ++ [x]) → AllInWindow first rest →
      highest first rest < x → x < highest first rest + 32768 →
      ¬ InWindow (highest first rest) x → ¬ Exact own ssrc es := by
  refine ⟨?_, ?_, ?_⟩
  · constructor
    · intro h
      by_contra hne
      obtain ⟨p, hp, first, hfirst⟩ := exists_first hne
      have hexact := h p hp (by simp [hfirst])
      obtain ⟨hbefore, _⟩ := (exact_iff hfirst trivial).mp hexact
      simp [highest] at hbefore
    · intro hnil p hp hne
      obtain ⟨es', rfl⟩ := hp
      rw [received_append] at hnil
      exact absurd (List.append_eq_nil_iff.mp hnil).1 hne
  · intro first rest hxs hall
    exact exact_iff hxs hall
  · intro first rest x hxs hall hlt hx hout
    exact not_exact_of_jump hxs hall hlt hx hout

/-- The second packet is the one before the first, and the third one jumps too far. -/
theorem ackVector_exact_iff_two :
    Exact 1 1234 [.receive 0 1234 100 10 false, .receive 5000 1234 100 9 false] ∧
    ¬ Exact 1 1234 [.receive 0 1234 100 10 false, .receive 5000 1234 100 20000 false] := by
  have hwindow : InWindow 10 9 := by simp [InWindow]
  constructor
  · refine ((ackVector_exact_iff 1 1234 _).2.1 10 [9] rfl ⟨hwindow, trivial⟩).mpr ⟨?_, ?_⟩
    · simp
    · simp [highest]
  · refine (ackVector_exact_iff 1 1234 _).2.2 10 [] 20000 rfl trivial ?_ ?_ ?_
    · simp
    · simp
    · simp [InWindow]

/-- The first packet has number 10, and the vector says that 9 was received. -/
theorem first_packet_inexact :
    ((after 1 [.receive 0 1234 100 10 false]).stream? 1234).map
        (fun stream => (stream.highestSeqNr, stream.ackVector)) = some (10, 1) ∧
      ¬ Exact 1 1234 [.receive 0 1234 100 10 false] := by
  refine ⟨by decide, ?_⟩
  rw [@exact_iff 1 1234 _ 10 [] rfl trivial]
  simp [WindowComplete, highest]

end ScreamRx

end Scream
