import RmcatNs3.Razor.StreamCalls

/-!
# What has been written is read back

Any run of typed writes on a new stream, read with the same types in the same order, and any
run of typed reads on any bytes. The block that `malloc` returns is arbitrary, and so are the
bytes that `realloc` adds behind it.
-/

namespace Razor

open StructMemory

/-- The bytes of a call that writes. -/
def WriteCall.wire : WriteCall → List UInt8
  | .int t val => Bytes.encode t.bytes val.toNat
  | .data (n := n) str => BinStream.wireData str n
  | .block str => str.toList

/-- Data has fewer than `65535` bytes. -/
def WriteCall.Allowed : WriteCall → Prop
  | .data (n := n) _ => n < 65535
  | _ => True

/-- The call reads the type that the other has written; data may be shorter than the array. -/
inductive SameType : ReadCall → WriteCall → Prop where
  | int (t : IntType) (val : t.Val) : SameType (.int t) (.int t val)
  | data {m n : Nat} (old : Vector UInt8 m) (str : Vector UInt8 n) (h : n ≤ m) :
      SameType (.data old) (.data str)
  | block {n : Nat} (old str : Vector UInt8 n) : SameType (.block old) (.block str)

/-- The value is the one that has been written. -/
inductive ReadBack : WriteCall → ReadResult → Prop where
  | int (t : IntType) (val : t.Val) : ReadBack (.int t val) (.int t val)
  | data {m n : Nat} (str : Vector UInt8 n) (ret : BitVec 16) (str' : Vector UInt8 m)
      (hret : ret.toNat = n)
      (hstr : ∀ i, i < n → BoundedArray.load str' i = BoundedArray.load str i) :
      ReadBack (.data str) (.data ret str')
  | block {n : Nat} (str : Vector UInt8 n) :
      ReadBack (.block str) (.block (BitVec.ofNat 16 n) str)

/-- The number of bytes that a call takes if they are there. -/
def ReadCall.needs : ReadCall → List UInt8 → Nat
  | .int t, _ => t.bytes
  | .data _, rest => if rest.length < 2 then 2 else 2 + Bytes.decode (rest.take 2)
  | .block (n := n) _, _ => n

/-- The call gives `0` or `READ_DATA_ERROR`, and leaves the array as it is. -/
inductive Fails : ReadCall → ReadResult → Prop where
  | int (t : IntType) : Fails (.int t) (.int t 0)
  | data {n : Nat} (str : Vector UInt8 n) (ret : BitVec 16) (h : ret = 0 ∨ ret = readDataError) :
      Fails (.data str) (.data ret str)
  | block {n : Nat} (str : Vector UInt8 n) : Fails (.block str) (.block readDataError str)

/-! ## Bytes -/

section

variable {r : ReadCall} {w : WriteCall}

theorem overwrite_eq {m : Nat} (old : Vector UInt8 m) {bytes : List UInt8}
    (h : bytes.length ≤ m) {i : Nat} (hi : i < bytes.length) :
    BoundedArray.load (overwrite old bytes) i = bytes[i]? := by
  obtain ⟨str', hstore, hnew, -⟩ := BoundedArray.storeAll_eq (a := old) (i := 0)
    (show 0 + bytes.length ≤ m by omega)
  have hload := hnew i hi
  rw [Nat.zero_add] at hload
  rw [overwrite, hstore, Option.getD_some, hload]

/-- **A reader takes off what the writer of the same type puts in front.** -/
theorem parse_wire (h : SameType r w) (hw : w.Allowed) (rest : List UInt8) :
    ReadBack w (r.parse (w.wire ++ rest)).1 ∧ (r.parse (w.wire ++ rest)).2 = rest := by
  cases h with
  | int t val =>
      have hlt : val.toNat < 256 ^ t.bytes := by
        have h := val.isLt
        rwa [Nat.pow_mul] at h
      simp only [ReadCall.parse, WriteCall.wire, takeNat_encode hlt]
      rw [BitVec.ofNat_toNat, BitVec.setWidth_eq]
      exact ⟨.int t val, trivial⟩
  | @data m n old str hle =>
      have hn : n < 65535 := hw
      have htake : takeNat 2 (BinStream.wireData str n ++ rest) = (n, str.toList ++ rest) := by
        rw [BinStream.wireData, List.append_assoc, takeNat_encode (show n < 256 ^ 2 by omega),
          List.take_of_length_le (by simp)]
      have hlen : str.toList.length = n := Vector.length_toList
      simp only [ReadCall.parse, WriteCall.wire, htake]
      rw [if_neg (by rw [List.length_append]; omega), List.take_left' hlen, List.drop_left' hlen]
      refine ⟨.data _ _ _ ?_ fun i hi => ?_, rfl⟩
      · rw [BitVec.toNat_ofNat, Nat.mod_eq_of_lt (by omega)]
      · rw [overwrite_eq old (by omega) (by omega), BoundedArray.load]
        simp
  | @block n old str =>
      have hlen : str.toList.length = n := Vector.length_toList
      have hsame : overwrite old str.toList = str := by
        apply Vector.ext
        intro i hi
        have h := overwrite_eq old (show str.toList.length ≤ n by omega) (i := i) (by omega)
        simpa [BoundedArray.load, hi] using h
      have hparse : (ReadCall.block old).parse (str.toList ++ rest) =
          (.block (BitVec.ofNat 16 n) str, rest) := by
        rw [ReadCall.parse, if_neg (by rw [List.length_append]; omega), List.take_left' hlen,
          List.drop_left' hlen, hsame]
      rw [WriteCall.wire, hparse]
      exact ⟨.block str, rfl⟩

/-- A run of readers takes off what the writers of the same types have put in front. -/
theorem parseAll_wire {rs : List ReadCall} {ws : List WriteCall} (h : List.Forall₂ SameType rs ws)
    (hws : ∀ w ∈ ws, w.Allowed) (rest : List UInt8) :
    List.Forall₂ ReadBack ws (parseAll rs (ws.flatMap WriteCall.wire ++ rest)).1 ∧
      (parseAll rs (ws.flatMap WriteCall.wire ++ rest)).2 = rest := by
  induction h with
  | nil => exact ⟨.nil, rfl⟩
  | @cons r w rs ws hsame _ ih =>
      obtain ⟨hback, hrest⟩ := parse_wire hsame (hws w List.mem_cons_self)
        (ws.flatMap WriteCall.wire ++ rest)
      obtain ⟨hbacks, hrests⟩ := ih fun w hw => hws w (List.mem_cons_of_mem _ hw)
      simp only [parseAll, List.flatMap_cons, List.append_assoc, hrest]
      exact ⟨.cons hback hbacks, hrests⟩

/-- **A read past the end** fails. -/
theorem fails_of_short {rest : List UInt8} (h : rest.length < r.needs rest) :
    Fails r (r.parse rest).1 := by
  cases r with
  | int t =>
      have htake := takeNat_of_lt (show rest.length < t.bytes from h)
      simp only [ReadCall.parse, htake]
      exact .int t
  | @data n str =>
      simp only [ReadCall.needs] at h
      split at h
      · rename_i hlt
        simp only [ReadCall.parse, takeNat_of_lt hlt]
        rw [if_neg (by omega)]
        exact .data str _ (.inl rfl)
      · rename_i hge
        have hlen : (rest.drop 2).length < Bytes.decode (rest.take 2) := by
          rw [List.length_drop]
          omega
        simp only [ReadCall.parse, takeNat_of_le (Nat.not_lt.mp hge)]
        rw [if_pos (.inr hlen)]
        exact .data str _ (.inr rfl)
  | @block n str =>
      rw [ReadCall.parse, if_pos (show rest.length < n from h)]
      exact .block str

end

/-! ## Streams -/

namespace BinStream

variable {strm strm' : BinStream} {bytes rest : List UInt8}

/-- Nothing has been read. -/
structure Unread (strm : BinStream) : Prop where
  rptr : strm.rptr = 0
  rsize : strm.rsize = 0

theorem Unread.resize (h : Unread strm) {newSize : Nat} (hr : strm.resize newSize = some strm') :
    Unread strm' := by
  unfold BinStream.resize at hr
  split at hr
  · obtain rfl := Option.some.inj hr
    exact h
  · obtain ⟨size, -, hsome⟩ := Option.bind_eq_some_iff.mp hr
    obtain rfl := Option.some.inj hsome
    exact ⟨h.rsize, h.rsize⟩

theorem Unread.reserve (h : Unread strm) {n : Nat} (hr : strm.reserve n = some strm') :
    Unread strm' := by
  unfold BinStream.reserve at hr
  split at hr
  · exact h.resize hr
  · obtain rfl := Option.some.inj hr
    exact h

theorem Unread.append (h : Unread strm) (ha : strm.append bytes = some strm') :
    Unread strm' := by
  unfold BinStream.append at ha
  split at ha
  · obtain rfl := Option.some.inj ha
    exact ⟨h.rptr, h.rsize⟩
  · cases ha

theorem put_eq (strm : BinStream) (bytes : List UInt8) :
    strm.put bytes = (strm.reserve bytes.length).bind fun strm => strm.append bytes := rfl

theorem Unread.put (h : Unread strm) (hp : strm.put bytes = some strm') : Unread strm' := by
  rw [put_eq] at hp
  obtain ⟨strm₁, hreserve, happend⟩ := Option.bind_eq_some_iff.mp hp
  exact (h.reserve hreserve).append happend

/-- **No write moves the cursor of the reader**, also where the block has grown. -/
theorem Unread.write (h : Unread strm) {w : WriteCall} (hw : strm.write w = some strm') :
    Unread strm' := by
  cases w with
  | int t val =>
      rw [BinStream.write, writeInt_eq] at hw
      exact h.put hw
  | data str =>
      obtain ⟨strm₁, hreserve, hw⟩ := Option.bind_eq_some_iff.mp hw
      obtain ⟨strm₂, hnum, hw⟩ := Option.bind_eq_some_iff.mp hw
      obtain ⟨bytes, -, happend⟩ := Option.bind_eq_some_iff.mp hw
      exact ((h.reserve hreserve).put hnum).append happend
  | block str =>
      obtain ⟨strm₁, hreserve, hw⟩ := Option.bind_eq_some_iff.mp hw
      obtain ⟨bytes, -, happend⟩ := Option.bind_eq_some_iff.mp hw
      exact (h.reserve hreserve).append happend

theorem encodes_block {n : Nat} (str : Vector UInt8 n) :
    Encodes (fun strm => strm.machBlockWrite str n) str.toList := by
  intro strm bytes h
  have hlen : str.toList.length = n := Vector.length_toList
  obtain ⟨strm₁, hreserve, hw₁, hroom⟩ := h.reserve n
  obtain ⟨strm₂, happend, hw₂⟩ := @Writing.append strm₁ _ hw₁ str.toList (by omega)
  have hload : BoundedArray.loadAll str n = some str.toList := by
    rw [BoundedArray.loadAll, if_pos (le_refl n), List.take_of_length_le (by omega)]
  refine ⟨strm₂, ?_, hw₂⟩
  simp only [machBlockWrite, hreserve, hload, happend, Option.bind_eq_bind, Option.bind_some]

theorem encodes_write {w : WriteCall} (hw : w.Allowed) :
    Encodes (fun strm => strm.write w) w.wire := by
  cases w with
  | int t val =>
      intro strm bytes h
      obtain ⟨strm', hput, hw'⟩ := h.put (Bytes.encode t.bytes val.toNat)
      exact ⟨strm', (writeInt_eq strm t val).trans hput, hw'⟩
  | @data n str =>
      have hn : n < 65535 := hw
      exact encodes_data str (le_refl n) (by omega)
  | block str => exact encodes_block str

/-- **A run of writes** puts all their bytes behind those that are there. -/
theorem Writing.writeAll {ws : List WriteCall} (h : Writing strm bytes) (hu : Unread strm)
    (hws : ∀ w ∈ ws, w.Allowed) :
    ∃ strm', strm.writeAll ws = some strm' ∧
      Writing strm' (bytes ++ ws.flatMap WriteCall.wire) ∧ Unread strm' := by
  induction ws generalizing strm bytes with
  | nil => exact ⟨strm, rfl, by rwa [List.flatMap_nil, List.append_nil], hu⟩
  | cons w ws ih =>
      obtain ⟨strm₁, hwrite, h₁⟩ := encodes_write (hws w List.mem_cons_self) strm bytes h
      obtain ⟨strm₂, hall, h₂, hu₂⟩ := ih h₁ (hu.write hwrite)
        fun w hw => hws w (List.mem_cons_of_mem _ hw)
      have hstep : strm.writeAll (w :: ws) = (strm.write w).bind fun strm => strm.writeAll ws :=
        List.foldlM_cons
      refine ⟨strm₂, ?_, ?_, hu₂⟩
      · rw [hstep, show strm.write w = some strm₁ from hwrite, Option.bind_some, hall]
      · rwa [List.flatMap_cons, ← List.append_assoc]

/-- What has been written can be read. -/
theorem Writing.reading (h : Writing strm bytes) (hu : Unread strm) : Reading strm bytes := by
  have hused := h.used
  refine ⟨by rw [hu.rptr, hu.rsize], by rw [hu.rsize, hused, Nat.zero_add], ?_, ?_⟩
  · rw [hused]
    exact h.size
  · rw [hu.rptr]
    exact h.data

/-- **A run of reads** gives what it reads off the bytes. -/
theorem Reading.readAll (h : Reading strm rest) (rs : List ReadCall) :
    ∃ strm', strm.readAll rs = some ((parseAll rs rest).1, strm') ∧
      Reading strm' (parseAll rs rest).2 ∧ strm'.used = strm.used := by
  induction rs generalizing strm rest with
  | nil => exact ⟨strm, rfl, h, rfl⟩
  | cons r rs ih =>
      obtain ⟨strm₁, hread, h₁, hused₁⟩ := (h.takes_read r).reading h
      obtain ⟨strm₂, hreads, h₂, hused₂⟩ := ih h₁
      refine ⟨strm₂, ?_, h₂, hused₂.trans hused₁⟩
      simp only [BinStream.readAll, hread, hreads, Option.bind_eq_bind, Option.bind_some, parseAll]

/-- The bytes that have been written and not been read. -/
def unread (strm : BinStream) : List UInt8 :=
  bytesAt strm.data strm.rptr (strm.used - strm.rsize)

/-- The cursors are where the numbers say, and the bytes are inside the block. -/
structure Consistent (strm : BinStream) : Prop where
  rptr : strm.rptr = strm.rsize
  rsize : strm.rsize ≤ strm.used
  used : strm.used ≤ strm.size

theorem Consistent.reading (h : Consistent strm) : Reading strm strm.unread := by
  have hrsize := h.rsize
  have hlen : strm.unread.length = strm.used - strm.rsize := length_bytesAt ..
  refine ⟨h.rptr, by omega, h.used, ?_⟩
  rw [hlen, unread]

theorem Reading.unread (h : Reading strm rest) : strm.unread = rest := by
  have hused := h.used
  have hdata := h.data
  rwa [show rest.length = strm.used - strm.rsize by omega] at hdata

theorem Reading.rsize_le (h : Reading strm rest) : strm.rsize ≤ strm.used := by
  have hused := h.used
  omega

/-- **Streams.** Whatever is written is inside the block, is not lost where the block grows,
and is read back by the same types in the same order, up to the last byte. Whatever is read off
a stream comes from the bytes that have not been read, and a read past their end fails. -/
theorem write_read :
    (∀ (data : Mem) (ws : List WriteCall), (∀ w ∈ ws, w.Allowed) →
      ∃ strm, (init data).writeAll ws = some strm ∧ strm.used ≤ strm.size ∧
        bytesAt strm.data 0 strm.used = ws.flatMap WriteCall.wire ∧
        ∀ rs, List.Forall₂ SameType rs ws →
          ∃ results strm', strm.readAll rs = some (results, strm') ∧
            List.Forall₂ ReadBack ws results ∧ strm'.rsize = strm'.used) ∧
    ∀ strm : BinStream, strm.Consistent → ∀ rs,
      ∃ strm₁, strm.readAll rs = some ((parseAll rs strm.unread).1, strm₁) ∧
        strm₁.used = strm.used ∧ strm₁.rsize ≤ strm₁.used ∧
        ∀ r, ∃ result strm₂, strm₁.read r = some (result, strm₂) ∧
          strm₂.used = strm.used ∧ strm₂.rsize ≤ strm₂.used ∧
          (strm₁.unread.length < r.needs strm₁.unread → Fails r result) := by
  constructor
  · intro data ws hws
    obtain ⟨strm, hwrite, hwriting, hu⟩ := (init_writing data).writeAll ⟨rfl, rfl⟩ hws
    rw [List.nil_append] at hwriting
    have hused := hwriting.used
    refine ⟨strm, hwrite, hused ▸ hwriting.size, hused ▸ hwriting.data, fun rs hsame => ?_⟩
    obtain ⟨strm', hread, hreading, -⟩ := (hwriting.reading hu).readAll rs
    obtain ⟨hback, hrest⟩ := parseAll_wire hsame hws []
    rw [List.append_nil] at hback hrest
    rw [hrest] at hreading
    exact ⟨_, strm', hread, hback, hreading.used⟩
  · intro strm hcons rs
    obtain ⟨strm₁, hread, h₁, hused₁⟩ := hcons.reading.readAll rs
    refine ⟨strm₁, hread, hused₁, h₁.rsize_le, fun r => ?_⟩
    obtain ⟨strm₂, hread₂, h₂, hused₂⟩ := (h₁.takes_read r).reading h₁
    refine ⟨_, strm₂, hread₂, hused₂.trans hused₁, h₂.rsize_le, fun hshort => ?_⟩
    rw [h₁.unread] at hshort
    exact fails_of_short hshort

/-- A number, some data that is read into a larger array, and a block. -/
theorem write_read_three :
    ∃ strm results strm',
      (init fun _ => 0).writeAll [.int .int16 0xfffe, .data #v[1, 2, 3], .block #v[7]] =
        some strm ∧
      strm.readAll [.int .int16, .data #v[0, 0, 0, 0], .block #v[0]] = some (results, strm') ∧
      strm'.rsize = strm'.used := by
  have hallowed : ∀ w ∈ [WriteCall.int .int16 0xfffe, .data #v[1, 2, 3], .block #v[7]],
      w.Allowed := by
    simp [WriteCall.Allowed]
  obtain ⟨strm, hwrite, -, -, hread⟩ := write_read.1 (fun _ => 0) _ hallowed
  obtain ⟨results, strm', hreads, -, hend⟩ := hread
    [.int .int16, .data #v[0, 0, 0, 0], .block #v[0]]
    (.cons (.int ..) (.cons (.data _ _ (by decide)) (.cons (.block ..) .nil)))
  exact ⟨strm, results, strm', hwrite, hreads, hend⟩

end BinStream

end Razor
