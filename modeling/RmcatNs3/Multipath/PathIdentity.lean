import Mathlib.Data.Finset.Card
import RmcatNs3.Lib.Runs
import RmcatNs3.Multipath.MpSender

/-!
# Paths and their addresses

A path stands for a tuple of addresses and ports. The maps of paths keep the
tuples apart as far as `comp_path` does: on tuples it tells apart, the receiver
has one path for each tuple and the sender finds every path it has made.
-/

namespace Multipath

open Razor Runs

/-! ## The receiver -/

/-- A packet that has arrived, and the path it was given to. -/
structure Reception where
  info : PathAddressInfo
  message : SimMessage
  path : Nat

namespace MpReceiver

def Receives (r : MpReceiver) (e : Reception) (r' : MpReceiver) : Prop :=
  r.recvPacket e.info e.message = (r', e.path)

/-- The tuples of some packets. -/
def tuplesOf (es : List Reception) : Finset PathAddressInfo :=
  (es.map (·.info)).toFinset

/-- Packets go to the same path exactly if their tuples are equal, and there are as
many paths as tuples. -/
structure Identifies (es : List Reception) (r : MpReceiver) : Prop where
  same_path_iff : ∀ e ∈ es, ∀ e' ∈ es, e.path = e'.path ↔ e.info = e'.info
  created : r.objects.length = (tuplesOf es).card

/-- The map has the path of every tuple seen, and no other. -/
structure Tracks (S : Set PathAddressInfo) (es : List Reception) (r : MpReceiver) : Prop where
  ordered : r.paths.Ordered S
  bound : ∀ e ∈ es, (e.info, e.path) ∈ r.paths.toList
  seen : ∀ b ∈ r.paths.toList, b.1 ∈ tuplesOf es
  value_lt : ∀ b ∈ r.paths.toList, b.2 < r.objects.length
  value_inj : ∀ b ∈ r.paths.toList, ∀ c ∈ r.paths.toList, b.2 = c.2 → b = c
  created : r.objects.length = (tuplesOf es).card

theorem tuplesOf_concat (es : List Reception) (e : Reception) :
    tuplesOf (es ++ [e]) = insert e.info (tuplesOf es) := by
  ext t
  simp [tuplesOf]

theorem mem_tuplesOf {es : List Reception} {t : PathAddressInfo} :
    t ∈ tuplesOf es ↔ ∃ e ∈ es, e.info = t := by
  simp [tuplesOf]

variable {S : Set PathAddressInfo} {es : List Reception} {e : Reception} {r r' : MpReceiver}

theorem Tracks.new (uid cid : BitVec 32) : Tracks S [] (new uid cid) where
  ordered := .empty
  bound := nofun
  seen := nofun
  value_lt := nofun
  value_inj := nofun
  created := rfl

theorem Tracks.found (h : Tracks S es r) {path : Nat}
    (hb : (e.info, path) ∈ r.paths.toList) (hpath : e.path = path)
    (hpaths : r'.paths = r.paths) (hlength : r'.objects.length = r.objects.length) :
    Tracks S (es ++ [e]) r' := by
  have hseen : e.info ∈ tuplesOf es := h.seen _ hb
  have htuples : tuplesOf (es ++ [e]) = tuplesOf es := by
    rw [tuplesOf_concat, Finset.insert_eq_of_mem hseen]
  constructor
  · exact hpaths ▸ h.ordered
  · intro e' he'
    rw [hpaths]
    rcases List.mem_append.mp he' with he' | he'
    · exact h.bound e' he'
    · obtain rfl := List.mem_singleton.mp he'
      exact hpath ▸ hb
  · rw [hpaths, htuples]
    exact h.seen
  · rw [hpaths, hlength]
    exact h.value_lt
  · rw [hpaths]
    exact h.value_inj
  · rw [hlength, htuples]
    exact h.created

theorem Tracks.made (h : Tracks S es r) (hS : TellsApart compPath S) (hin : e.info ∈ S)
    (hnew : ∀ b ∈ r.paths.toList, b.1 ≠ e.info) (hpath : e.path = r.objects.length)
    (hpaths : r'.paths = r.paths.insert e.info r.objects.length)
    (hlength : r'.objects.length = r.objects.length + 1) :
    Tracks S (es ++ [e]) r' := by
  have hmem := fun b => @ComparatorMap.mem_insert _ _ _ S r.paths e.info r.objects.length b
    hS hin h.ordered hnew
  have hunseen : e.info ∉ tuplesOf es := by
    intro hseen
    obtain ⟨e', he', heq⟩ := mem_tuplesOf.mp hseen
    exact hnew _ (h.bound e' he') heq
  constructor
  · exact hpaths ▸ h.ordered.insert hS hin
  · intro e' he'
    rw [hpaths, hmem]
    rcases List.mem_append.mp he' with he' | he'
    · exact .inr (h.bound e' he')
    · obtain rfl := List.mem_singleton.mp he'
      exact .inl (hpath ▸ rfl)
  · intro b hb
    rw [hpaths, hmem] at hb
    rw [tuplesOf_concat, Finset.mem_insert]
    rcases hb with rfl | hb
    · exact .inl rfl
    · exact .inr (h.seen b hb)
  · intro b hb
    rw [hpaths, hmem] at hb
    rw [hlength]
    rcases hb with rfl | hb
    · exact Nat.lt_succ_self _
    · exact Nat.lt_succ_of_lt (h.value_lt b hb)
  · intro b hb c hc heq
    rw [hpaths, hmem] at hb hc
    rcases hb with rfl | hb <;> rcases hc with rfl | hc
    · rfl
    · exact absurd heq.symm (Nat.ne_of_lt (h.value_lt c hc))
    · exact absurd heq (Nat.ne_of_lt (h.value_lt b hb))
    · exact h.value_inj b hb c hc heq
  · rw [hlength, tuplesOf_concat, Finset.card_insert_of_notMem hunseen, h.created]

theorem Tracks.step (h : Tracks S es r) (hS : TellsApart compPath S) (hin : e.info ∈ S)
    (hstep : r.Receives e r') : Tracks S (es ++ [e]) r' := by
  have hr' : (r.recvPacket e.info e.message).1 = r' := congrArg Prod.fst hstep
  have hpath : (r.recvPacket e.info e.message).2 = e.path := congrArg Prod.snd hstep
  cases hfind : r.paths.find? e.info with
  | some b =>
      obtain ⟨hvalue, hpaths, hlength⟩ := recvPacket_found hfind e.message
      obtain ⟨hb, hkey⟩ := (ComparatorMap.find?_eq_some_iff hS hin h.ordered).mp hfind
      rw [hr'] at hpaths hlength
      exact h.found (hkey ▸ hb) (hpath.symm.trans hvalue) hpaths hlength
  | none =>
      obtain ⟨hvalue, hpaths, hlength⟩ := recvPacket_new hfind e.message
      have hnew := (ComparatorMap.find?_eq_none_iff hS hin h.ordered).mp hfind
      rw [hr'] at hpaths hlength
      exact h.made hS hin hnew (hpath.symm.trans hvalue) hpaths hlength

theorem tracks_of_run {uid cid : BitVec 32} (hS : TellsApart compPath S)
    (hrun : Run Receives (new uid cid) es r) (hin : ∀ t ∈ tuplesOf es, t ∈ S) :
    Tracks S es r := by
  induction hrun with
  | nil => exact .new uid cid
  | snoc _ hstep ih =>
      rw [tuplesOf_concat] at hin
      have h := ih fun t ht => hin t (Finset.mem_insert_of_mem ht)
      exact h.step hS (hin _ (Finset.mem_insert_self ..)) hstep

theorem Tracks.identifies (h : Tracks S es r) (hS : TellsApart compPath S) :
    Identifies es r where
  same_path_iff := by
    intro e he e' he'
    constructor
    · intro hpath
      have heq := h.value_inj _ (h.bound e he) _ (h.bound e' he') hpath
      exact (Prod.mk.inj heq).1
    · intro hinfo
      have heq := h.ordered.eq_of_key hS (h.bound e he) (h.bound e' he') hinfo
      exact (Prod.mk.inj heq).2
  created := h.created

end MpReceiver

/-! ## The sender -/

namespace MpSender

/-- The arguments of `AddPath`, and what the memory of the new paths held. -/
structure AddCall where
  destIp : Ipv4Address
  destPort : Port
  lastUpdate : Nat
  byteRemaining : BitVec 32

variable (isExistPath : Ipv4Address → Ipv4Address → Bool)

/-- Some calls of `AddPath`, one after the other. -/
def addPaths (s : MpSender) (calls : List AddCall) : MpSender :=
  calls.foldl (fun s c => s.addPath isExistPath c.destIp c.destPort c.lastUpdate
    c.byteRemaining) s

/-- The tuples of the paths that some calls make, in the order in which they make
them. -/
def addedInfos (s : MpSender) (calls : List AddCall) : List PathAddressInfo :=
  calls.flatMap fun c => s.addPathInfos isExistPath c.destIp c.destPort

/-- `GetPath` finds the path made for each tuple, and `m_paths` has it. -/
def Finds (infos : List PathAddressInfo) (s : MpSender) : Prop :=
  ∀ i info, infos[i]? = some info →
    s.getPath info = some i ∧ (info, i) ∈ s.paths.toList ∧
    ∃ p, s.heap i = some p ∧ p.info = info

/-- The map has the paths made so far. -/
structure Keeps (S : Set PathAddressInfo) (infos : List PathAddressInfo) (s : MpSender) :
    Prop where
  ordered : s.paths.Ordered S
  mem_iff : ∀ b, b ∈ s.paths.toList ↔ infos[b.2]? = some b.1
  nextPath : s.nextPath = infos.length
  heap : ∀ i info, infos[i]? = some info → ∃ p, s.heap i = some p ∧ p.info = info

variable {S : Set PathAddressInfo} {infos : List PathAddressInfo} {s : MpSender}
variable {isExistPath}

theorem Keeps.turn (h : Keeps S infos s) (hS : TellsApart compPath S)
    {info : PathAddressInfo} (hin : info ∈ S) (hnew : info ∉ infos) (lastUpdate : Nat)
    (byteRemaining : BitVec 32) :
    Keeps S (infos ++ [info]) (addPathTurn lastUpdate byteRemaining s info) := by
  have hfresh : ∀ b ∈ s.paths.toList, b.1 ≠ info := by
    intro b hb heq
    exact hnew (heq ▸ List.mem_of_getElem? ((h.mem_iff b).mp hb))
  have hlookup : ∀ i t, (infos ++ [info])[i]? = some t ↔
      infos[i]? = some t ∨ i = infos.length ∧ t = info := by
    intro i t
    rcases Nat.lt_trichotomy i infos.length with hlt | rfl | hgt
    · rw [List.getElem?_append_left hlt]
      simp [Nat.ne_of_lt hlt]
    · simp [eq_comm]
    · rw [List.getElem?_eq_none (by simp; omega), List.getElem?_eq_none (by omega)]
      simp [Nat.ne_of_gt hgt]
  constructor
  · exact h.ordered.insert hS hin
  · intro b
    rw [hlookup, ← h.mem_iff, ← h.nextPath]
    show b ∈ (s.paths.insert info s.nextPath).toList ↔ _
    rw [ComparatorMap.mem_insert hS hin h.ordered hfresh, or_comm, Prod.ext_iff, and_comm]
  · simp [addPathTurn, h.nextPath]
  · intro i t ht
    rcases (hlookup i t).mp ht with hold | ⟨rfl, rfl⟩
    · have hi : i < infos.length := (List.getElem?_eq_some_iff.mp hold).1
      have hne : i ≠ s.nextPath := by
        rw [h.nextPath]
        exact Nat.ne_of_lt hi
      simpa [addPathTurn, setPath, hne] using h.heap i t hold
    · simp [addPathTurn, setPath, ← h.nextPath, Path.new]

theorem Keeps.turns (hS : TellsApart compPath S) {new : List PathAddressInfo}
    (lastUpdate : Nat) (byteRemaining : BitVec 32) (h : Keeps S infos s)
    (hin : ∀ info ∈ new, info ∈ S) (hnodup : (infos ++ new).Nodup) :
    Keeps S (infos ++ new) (new.foldl (addPathTurn lastUpdate byteRemaining) s) := by
  induction new generalizing infos s with
  | nil => simpa using h
  | cons info rest ih =>
      have hassoc : infos ++ info :: rest = (infos ++ [info]) ++ rest := by simp
      rw [hassoc] at hnodup ⊢
      have hnew : info ∉ infos := by
        intro hmem
        have hdisj := List.nodup_append.mp (List.nodup_append.mp hnodup).1
        exact hdisj.2.2 info hmem info (List.mem_singleton_self _) rfl
      exact ih (h.turn hS (hin info (List.mem_cons_self ..)) hnew lastUpdate byteRemaining)
        (fun t ht => hin t (List.mem_cons_of_mem _ ht)) hnodup

theorem addPathTurn_sockets (lastUpdate : Nat) (byteRemaining : BitVec 32)
    (new : List PathAddressInfo) (s : MpSender) :
    (new.foldl (addPathTurn lastUpdate byteRemaining) s).sockets = s.sockets := by
  induction new generalizing s with
  | nil => rfl
  | cons info rest ih => exact ih _

theorem Keeps.addPaths (hS : TellsApart compPath S) {calls : List AddCall}
    (h : Keeps S infos s)
    (hin : ∀ info ∈ s.addedInfos isExistPath calls, info ∈ S)
    (hnodup : (infos ++ s.addedInfos isExistPath calls).Nodup) :
    Keeps S (infos ++ s.addedInfos isExistPath calls) (s.addPaths isExistPath calls) := by
  induction calls generalizing infos s with
  | nil => simpa [MpSender.addPaths, addedInfos] using h
  | cons c rest ih =>
      let s₁ := s.addPath isExistPath c.destIp c.destPort c.lastUpdate c.byteRemaining
      have hsockets : s₁.sockets = s.sockets :=
        addPathTurn_sockets c.lastUpdate c.byteRemaining _ s
      have hrest : s₁.addedInfos isExistPath rest = s.addedInfos isExistPath rest := by
        simp only [addedInfos, addPathInfos, hsockets]
      have hsplit : s.addedInfos isExistPath (c :: rest) =
          s.addPathInfos isExistPath c.destIp c.destPort ++ s.addedInfos isExistPath rest := by
        simp [addedInfos]
      rw [hsplit] at hin hnodup ⊢
      rw [← List.append_assoc] at hnodup ⊢
      have h₁ : Keeps S (infos ++ s.addPathInfos isExistPath c.destIp c.destPort) s₁ :=
        h.turns hS c.lastUpdate c.byteRemaining
          (fun t ht => hin t (List.mem_append_left _ ht)) (List.nodup_append.mp hnodup).1
      have hfinal := @ih _ s₁ h₁
        (fun t ht => hin t (List.mem_append_right _ (hrest ▸ ht))) (hrest.symm ▸ hnodup)
      rw [hrest] at hfinal
      exact hfinal

theorem Keeps.new (cid uid frameId : BitVec 32)
    (sockets : ComparatorMap Ipv4Address Port compSocket) :
    Keeps S [] (new cid uid frameId sockets) where
  ordered := .empty
  mem_iff := by simp [MpSender.new, ComparatorMap.empty]
  nextPath := rfl
  heap := by simp

theorem Keeps.finds (h : Keeps S infos s) (hS : TellsApart compPath S)
    (hin : ∀ info ∈ infos, info ∈ S) : Finds infos s := by
  intro i info hi
  have hmem : (info, i) ∈ s.paths.toList := (h.mem_iff (info, i)).mpr hi
  have hfind := (ComparatorMap.find?_eq_some_iff hS (hin info (List.mem_of_getElem? hi))
    h.ordered).mpr ⟨hmem, rfl⟩
  refine ⟨?_, hmem, h.heap i info hi⟩
  simp [getPath, hfind]

end MpSender

/-! ## Path identity -/

/-- **One path for each tuple**, at the receiver and at the sender, exactly for
tuples whose source port is not below the destination port and which differ in
another field than `destPort`. -/
theorem pathIdentity_iff (uid cid : BitVec 32) :
    (∀ S : Set PathAddressInfo, TellsApart compPath S ↔ Separable S) ∧
    (∀ es r, Run MpReceiver.Receives (.new uid cid) es r →
      (TellsApart compPath (MpReceiver.tuplesOf es) ∧ MpReceiver.Identifies es r ↔
        Separable (MpReceiver.tuplesOf es))) ∧
    ∀ isExistPath frameId sockets calls,
      let s := MpSender.new cid uid frameId sockets
      let infos := s.addedInfos isExistPath calls
      infos.Nodup →
      (TellsApart compPath {t | t ∈ infos} ∧ (s.addPaths isExistPath calls).Finds infos ↔
        Separable {t | t ∈ infos}) := by
  refine ⟨tellsApart_iff, ?_, ?_⟩
  · intro es r hrun
    rw [← tellsApart_iff]
    refine and_iff_left_of_imp fun hS => ?_
    exact (MpReceiver.tracks_of_run hS hrun fun _ ht => ht).identifies hS
  · intro isExistPath frameId sockets calls s infos hnodup
    rw [← tellsApart_iff]
    refine and_iff_left_of_imp fun hS => ?_
    have hkeeps := @MpSender.Keeps.addPaths isExistPath _ [] s hS calls
      (.new cid uid frameId sockets) (fun _ ht => ht) (by simpa using hnodup)
    rw [List.nil_append] at hkeeps
    exact hkeeps.finds hS fun _ ht => ht

/-- A tuple with the ports of a client and a server. -/
def clientTuple (destPort : Port) : PathAddressInfo where
  srcIp := 0x0a010101
  destIp := 0x0a010201
  srcPort := 5000
  destPort := destPort

/-- Two packets of one client go to two paths; two clients behind one address, with
lower ports, share one. -/
theorem paths_confused :
    (∃ r r', MpReceiver.Receives (.new 1 4321) ⟨clientTuple 49153, .ping 0, 0⟩ r ∧
      r.Receives ⟨clientTuple 49153, .ping 0, 1⟩ r') ∧
    (∃ r r', MpReceiver.Receives (.new 1 4321) ⟨clientTuple 4001, .ping 0, 0⟩ r ∧
      r.Receives ⟨clientTuple 4002, .ping 0, 0⟩ r') ∧
    ¬ TellsApart compPath {clientTuple 49153} ∧
    ¬ TellsApart compPath {clientTuple 4001, clientTuple 4002} := by
  refine ⟨⟨_, _, rfl, rfl⟩, ⟨_, _, rfl, rfl⟩, ?_, ?_⟩
  · intro h
    exact h.irrefl rfl (by decide)
  · intro h
    have heq := (h.equiv_iff (clientTuple 4001) (.inl rfl) (clientTuple 4002) (.inr rfl)).mp
      (by unfold KeyEquiv; decide)
    exact absurd heq (by decide)

end Multipath
