import RmcatNs3.Razor.StreamCodec

/-!
# Runs of typed calls on a stream

The writers and readers of `razor/common/cf_stream.c` under one name each for all types. A
reader is compared with `parse`, which takes the same value off a list of bytes: what it gives
depends on the bytes that have been written and not been read, and on nothing else. Sizes are
numbers: an object in memory is far from `SIZE_MAX`, and so are the sums of the sizes of two.
-/

namespace Razor

open StructMemory

namespace BinStream

/-! ## The remaining functions of the stream -/

def machInt8Write (strm : BinStream) (val : BitVec 8) : Option BinStream :=
  strm.put (Bytes.encode 1 val.toNat)

def machInt16Write (strm : BinStream) (val : BitVec 16) : Option BinStream :=
  strm.put (Bytes.encode 2 val.toNat)

def machUint64Write (strm : BinStream) (val : BitVec 64) : Option BinStream :=
  strm.put (Bytes.encode 8 val.toNat)

def machInt8Read (strm : BinStream) : Option (BitVec 8 × BinStream) := strm.getBits 1 8

def machInt16Read (strm : BinStream) : Option (BitVec 16 × BinStream) := strm.getBits 2 16

def machUint64Read (strm : BinStream) : Option (BitVec 64 × BinStream) := strm.getBits 8 64

/-- `mach_block_write` of the first `size` bytes of `str`. -/
def machBlockWrite {n : Nat} (strm : BinStream) (str : Vector UInt8 n) (size : Nat) :
    Option BinStream := do
  let strm ← strm.reserve size
  let bytes ← BoundedArray.loadAll str size
  strm.append bytes

/-- `mach_block_read` into `str`, of `size` bytes. -/
def machBlockRead {n : Nat} (strm : BinStream) (str : Vector UInt8 n) (size : Nat) :
    Option ((BitVec 16 × Vector UInt8 n) × BinStream) :=
  if strm.rsize + size > strm.used then some ((readDataError, str), strm)
  else do
    let bytes ← strm.fetch size
    let str ← BoundedArray.storeAll str 0 bytes
    some ((BitVec.ofNat 16 size, str), { strm with
      rptr := strm.rptr + size
      rsize := strm.rsize + size })

end BinStream

/-! ## Calls -/

/-- The types of integers that a stream takes. -/
inductive IntType where
  | uint8 | int8 | uint16 | int16 | uint32 | int32 | uint64 | int64
  deriving DecidableEq, Repr

def IntType.bytes : IntType → Nat
  | .uint8 | .int8 => 1
  | .uint16 | .int16 => 2
  | .uint32 | .int32 => 4
  | .uint64 | .int64 => 8

/-- A value of the type, by its bits. -/
abbrev IntType.Val (t : IntType) : Type := BitVec (8 * t.bytes)

/-- A call that writes. The `size` that goes with `str` is the size of the array. -/
inductive WriteCall where
  | int (t : IntType) (val : t.Val)
  | data {n : Nat} (str : Vector UInt8 n)
  | block {n : Nat} (str : Vector UInt8 n)

/-- A call that reads. The `size` that goes with `str` is the size of the array. -/
inductive ReadCall where
  | int (t : IntType)
  | data {n : Nat} (str : Vector UInt8 n)
  | block {n : Nat} (str : Vector UInt8 n)

/-- What a call that reads leaves: the integer, or what it returns and the array. -/
inductive ReadResult where
  | int (t : IntType) (val : t.Val)
  | data {n : Nat} (ret : BitVec 16) (str : Vector UInt8 n)
  | block {n : Nat} (ret : BitVec 16) (str : Vector UInt8 n)

namespace BinStream

def writeInt (strm : BinStream) : (t : IntType) → t.Val → Option BinStream
  | .uint8, val => strm.machUint8Write val
  | .int8, val => strm.machInt8Write val
  | .uint16, val => strm.machUint16Write val
  | .int16, val => strm.machInt16Write val
  | .uint32, val => strm.machUint32Write val
  | .int32, val => strm.machInt32Write val
  | .uint64, val => strm.machUint64Write val
  | .int64, val => strm.machInt64Write val

def readInt (strm : BinStream) : (t : IntType) → Option (t.Val × BinStream)
  | .uint8 => strm.machUint8Read
  | .int8 => strm.machInt8Read
  | .uint16 => strm.machUint16Read
  | .int16 => strm.machInt16Read
  | .uint32 => strm.machUint32Read
  | .int32 => strm.machInt32Read
  | .uint64 => strm.machUint64Read
  | .int64 => strm.machInt64Read

def write (strm : BinStream) : WriteCall → Option BinStream
  | .int t val => strm.writeInt t val
  | .data (n := n) str => strm.machDataWrite str n
  | .block (n := n) str => strm.machBlockWrite str n

def read (strm : BinStream) : ReadCall → Option (ReadResult × BinStream)
  | .int t => do
      let (val, strm) ← strm.readInt t
      some (.int t val, strm)
  | .data (n := n) str => do
      let ((ret, str), strm) ← strm.machDataRead str n
      some (.data ret str, strm)
  | .block (n := n) str => do
      let ((ret, str), strm) ← strm.machBlockRead str n
      some (.block ret str, strm)

def writeAll (strm : BinStream) (ws : List WriteCall) : Option BinStream := ws.foldlM write strm

def readAll (strm : BinStream) : List ReadCall → Option (List ReadResult × BinStream)
  | [] => some ([], strm)
  | r :: rs => do
      let (result, strm) ← strm.read r
      let (results, strm) ← strm.readAll rs
      some (result :: results, strm)

theorem writeInt_eq (strm : BinStream) (t : IntType) (val : t.Val) :
    strm.writeInt t val = strm.put (Bytes.encode t.bytes val.toNat) := by
  cases t <;> rfl

theorem readInt_eq (strm : BinStream) (t : IntType) :
    strm.readInt t = strm.getBits t.bytes (8 * t.bytes) := by
  cases t <;> rfl

end BinStream

/-! ## Reading off a list of bytes -/

/-- The number in the next `n` bytes, or `0` if there are not as many, and what is left. -/
def takeNat (n : Nat) (rest : List UInt8) : Nat × List UInt8 :=
  if rest.length < n then (0, rest) else (Bytes.decode (rest.take n), rest.drop n)

/-- The array with these bytes in front. -/
def overwrite {n : Nat} (str : Vector UInt8 n) (bytes : List UInt8) : Vector UInt8 n :=
  (BoundedArray.storeAll str 0 bytes).getD str

/-- What a call reads off some bytes, and what is left of them. -/
def ReadCall.parse : ReadCall → List UInt8 → ReadResult × List UInt8
  | .int t, rest =>
      let (val, rest) := takeNat t.bytes rest
      (.int t (BitVec.ofNat _ val), rest)
  | .data (n := n) str, rest =>
      let (len, rest) := takeNat 2 rest
      if len > n ∨ rest.length < len then (.data readDataError str, rest)
      else (.data (BitVec.ofNat 16 len) (overwrite str (rest.take len)), rest.drop len)
  | .block (n := n) str, rest =>
      if rest.length < n then (.block readDataError str, rest)
      else (.block (BitVec.ofNat 16 n) (overwrite str (rest.take n)), rest.drop n)

def parseAll : List ReadCall → List UInt8 → List ReadResult × List UInt8
  | [], rest => ([], rest)
  | r :: rs, rest =>
      let (result, rest) := r.parse rest
      let (results, rest) := parseAll rs rest
      (result :: results, rest)

theorem takeNat_of_lt {n : Nat} {rest : List UInt8} (h : rest.length < n) :
    takeNat n rest = (0, rest) :=
  if_pos h

theorem takeNat_of_le {n : Nat} {rest : List UInt8} (h : n ≤ rest.length) :
    takeNat n rest = (Bytes.decode (rest.take n), rest.drop n) :=
  if_neg (Nat.not_lt.mpr h)

theorem takeNat_encode {n v : Nat} (hv : v < 256 ^ n) (rest : List UInt8) :
    takeNat n (Bytes.encode n v ++ rest) = (v, rest) := by
  have hlen := Bytes.length_encode n v
  rw [takeNat_of_le (by rw [List.length_append, hlen]; omega), List.take_left' hlen,
    List.drop_left' hlen, Bytes.decode_encode_of_lt hv]

theorem takeNat_lt (n : Nat) (rest : List UInt8) : (takeNat n rest).1 < 256 ^ n := by
  rcases Nat.lt_or_ge rest.length n with hlt | hge
  · rw [takeNat_of_lt hlt]
    exact Nat.pow_pos (by decide)
  · rw [takeNat_of_le hge]
    have h := Bytes.decode_lt (rest.take n)
    rwa [List.length_take_of_le hge] at h

namespace BinStream

variable {strm : BinStream} {rest : List UInt8}

/-- The cursor of the reader `n` bytes further. -/
def skip (strm : BinStream) (n : Nat) : BinStream :=
  { strm with rptr := strm.rptr + n, rsize := strm.rsize + n }

theorem skip_skip (strm : BinStream) (m n : Nat) : (strm.skip m).skip n = strm.skip (m + n) := by
  simp only [skip, Nat.add_assoc]

/-- The bytes that are there can be fetched, and then the others are left. -/
theorem Reading.skip (h : Reading strm rest) {n : Nat} (hn : n ≤ rest.length) :
    strm.fetch n = some (rest.take n) ∧ Reading (strm.skip n) (rest.drop n) := by
  have hused := h.used
  have hrptr := h.rptr
  have hsize := h.size
  have hdata := h.data
  obtain ⟨k, hk⟩ := Nat.exists_eq_add_of_le hn
  rw [hk, bytesAt_append] at hdata
  have htake : bytesAt strm.data strm.rptr n = rest.take n := by
    rw [← hdata, List.take_left' (length_bytesAt ..)]
  have hdrop : bytesAt strm.data (strm.rptr + n) k = rest.drop n := by
    rw [← hdata, List.drop_left' (length_bytesAt ..)]
  constructor
  · rw [fetch, if_pos ⟨by omega, by omega⟩, htake]
  · refine ⟨by rw [BinStream.skip, hrptr], ?_, hsize, ?_⟩
    · rw [List.length_drop]
      show strm.rsize + n + (rest.length - n) = strm.used
      omega
    · rw [List.length_drop, hk, Nat.add_sub_cancel_left]
      exact hdrop

/-- A reader that goes from some bytes to fewer gives this, on a stream that has them. -/
def Takes {α : Type} (strm : BinStream) (rest : List UInt8) (res : Option (α × BinStream)) (a : α)
    (rest' : List UInt8) : Prop :=
  ∃ k, k ≤ rest.length ∧ res = some (a, strm.skip k) ∧ rest' = rest.drop k

theorem Takes.reading {α : Type} {res : Option (α × BinStream)} {a : α} {rest' : List UInt8}
    (ht : Takes strm rest res a rest') (h : Reading strm rest) :
    ∃ strm', res = some (a, strm') ∧ Reading strm' rest' ∧ strm'.used = strm.used := by
  obtain ⟨k, hk, rfl, rfl⟩ := ht
  exact ⟨strm.skip k, rfl, (h.skip hk).2, rfl⟩

theorem Reading.takes_get (h : Reading strm rest) (n : Nat) :
    Takes strm rest (strm.get n) (takeNat n rest).1 (takeNat n rest).2 := by
  rcases Nat.lt_or_ge rest.length n with hlt | hge
  · rw [takeNat_of_lt hlt]
    exact ⟨0, Nat.zero_le _, h.get_short hlt, rfl⟩
  · have hused := h.used
    rw [takeNat_of_le hge]
    refine ⟨n, hge, ?_, rfl⟩
    rw [BinStream.get, if_neg (by omega), (h.skip hge).1]
    rfl

theorem Reading.takes_getBits (h : Reading strm rest) (n w : Nat) :
    Takes strm rest (strm.getBits n w) (BitVec.ofNat w (takeNat n rest).1) (takeNat n rest).2 := by
  obtain ⟨k, hk, hget, hrest⟩ := h.takes_get n
  refine ⟨k, hk, ?_, hrest⟩
  rw [BinStream.getBits, hget, Option.bind_eq_bind, Option.bind_some]

/-- The bytes fit the array that they are read into. -/
theorem storeAll_eq_overwrite {n : Nat} (str : Vector UInt8 n) {bytes : List UInt8}
    (h : bytes.length ≤ n) :
    BoundedArray.storeAll str 0 bytes = some (overwrite str bytes) := by
  obtain ⟨str', hstore, -, -⟩ := BoundedArray.storeAll_eq (a := str) (i := 0)
    (show 0 + bytes.length ≤ n by omega)
  rw [overwrite, hstore, Option.getD_some]

theorem Reading.takes_block (h : Reading strm rest) {n : Nat} (str : Vector UInt8 n) :
    Takes strm rest (strm.read (.block str)) ((ReadCall.block str).parse rest).1
      ((ReadCall.block str).parse rest).2 := by
  have hused := h.used
  rcases Nat.lt_or_ge rest.length n with hlt | hge
  · refine ⟨0, Nat.zero_le _, ?_, ?_⟩
    · simp only [read, machBlockRead, ReadCall.parse]
      rw [if_pos (by omega), if_pos hlt]
      rfl
    · rw [ReadCall.parse, if_pos hlt, List.drop_zero]
  · refine ⟨n, hge, ?_, ?_⟩
    · simp only [read, machBlockRead, ReadCall.parse]
      rw [if_neg (by omega), if_neg (by omega), (h.skip hge).1]
      simp only [Option.bind_eq_bind, Option.bind_some]
      rw [storeAll_eq_overwrite str (by simp)]
      rfl
    · rw [ReadCall.parse, if_neg (by omega)]

theorem Reading.takes_data (h : Reading strm rest) {n : Nat} (str : Vector UInt8 n) :
    Takes strm rest (strm.read (.data str)) ((ReadCall.data str).parse rest).1
      ((ReadCall.data str).parse rest).2 := by
  obtain ⟨k, hk, hget, hrest⟩ := h.takes_getBits 2 16
  have hlen := takeNat_lt 2 rest
  obtain ⟨⟨len, rest'⟩, htake⟩ : ∃ p, p = takeNat 2 rest := ⟨_, rfl⟩
  rw [← htake] at hget hrest hlen
  dsimp only at hget hrest hlen
  have hr : Reading (strm.skip k) rest' := by
    rw [hrest]
    exact (h.skip hk).2
  have hnat : (BitVec.ofNat 16 len).toNat = len := by
    rw [BitVec.toNat_ofNat]
    exact Nat.mod_eq_of_lt hlen
  have hused := hr.used
  by_cases hbad : len > n ∨ rest'.length < len
  · -- only the length has been taken
    refine ⟨k, hk, ?_, ?_⟩
    · simp only [read, machDataRead, machUint16Read, hget, Option.bind_eq_bind,
        Option.bind_some, hnat, ReadCall.parse, ← htake]
      rw [if_pos (by omega), if_pos hbad]
      rfl
    · simp only [ReadCall.parse, ← htake]
      rw [if_pos hbad, hrest]
  · obtain ⟨hfetch, -⟩ := hr.skip (show len ≤ rest'.length by omega)
    refine ⟨k + len, ?_, ?_, ?_⟩
    · have hdrop : rest'.length = rest.length - k := by rw [hrest, List.length_drop]
      omega
    · simp only [read, machDataRead, machUint16Read, hget, Option.bind_eq_bind,
        Option.bind_some, hnat, ReadCall.parse, ← htake]
      rw [if_neg (by omega), if_neg hbad, hfetch, Option.bind_some,
        storeAll_eq_overwrite str (by rw [List.length_take]; omega), ← skip_skip]
      rfl
    · simp only [ReadCall.parse, ← htake]
      rw [if_neg hbad, hrest, List.drop_drop]

/-- **A reader** gives what `parse` takes off the bytes that are left. -/
theorem Reading.takes_read (h : Reading strm rest) (r : ReadCall) :
    Takes strm rest (strm.read r) (r.parse rest).1 (r.parse rest).2 := by
  cases r with
  | int t =>
      obtain ⟨k, hk, hget, hrest⟩ := h.takes_getBits t.bytes (8 * t.bytes)
      refine ⟨k, hk, ?_, hrest⟩
      rw [read, readInt_eq, hget, Option.bind_eq_bind, Option.bind_some]
      rfl
  | data str => exact h.takes_data str
  | block str => exact h.takes_block str

end BinStream

end Razor
