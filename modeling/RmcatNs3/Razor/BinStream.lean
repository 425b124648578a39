import RmcatNs3.Lib.StructMemory

/-!
# Binary streams

`razor/common/cf_stream.{c,h}`. The pointers `rptr` and `wptr` are offsets into
the block `data` of `size` bytes. Numbers are most significant byte first on
every host. Writing outside the block, reading outside it or outside the `used`
bytes, and a `bin_stream_resize` that does not end are `none`. The magic number is
left out, and so are the functions that move or shrink a block.
-/

namespace Razor

open StructMemory

def defaultPacketSize : Nat := 1024

/-- `bin_stream_t`. -/
structure BinStream where
  data : Mem
  size : Nat
  rptr : Nat
  rsize : Nat
  wptr : Nat
  used : Nat

namespace BinStream

/-- `bin_stream_init`, with the block that `malloc` returns. -/
def init (data : Mem) : BinStream := ⟨data, defaultPacketSize, 0, 0, 0, 0⟩

/-- `bin_stream_rewind`. -/
def rewind (strm : BinStream) (reset : Int) : BinStream :=
  let strm := if reset = 1 then { strm with wptr := 0, used := 0 } else strm
  { strm with rptr := 0, rsize := 0 }

/-- The loop of `bin_stream_resize`. -/
def growLoop (newSize : Nat) : Nat → Nat → Option Nat
  | 0, _ => none
  | fuel + 1, allocSize =>
      if newSize > allocSize then growLoop newSize fuel (allocSize * 2)
      else some allocSize

/-- `bin_stream_resize`. -/
def resize (strm : BinStream) (newSize : Nat) : Option BinStream :=
  if newSize ≤ strm.size then some strm
  else do
    let size ← growLoop newSize (newSize + 1) strm.size
    some { strm with size, wptr := strm.used, rptr := strm.rsize }

/-- `memcpy` to the start of the block. -/
def copyIn (strm : BinStream) (bytes : List UInt8) : Option BinStream :=
  if bytes.length ≤ strm.size then
    some { strm with data := writeBytes strm.data 0 bytes }
  else none

/-! ## Writing -/

/-- The macro `RESIZE`. -/
def reserve (strm : BinStream) (s : Nat) : Option BinStream :=
  if strm.size < strm.used + s then strm.resize (strm.used + s) else some strm

/-- What the `mach_..._write` functions have in common: `RESIZE`, and the bytes
at `wptr`. -/
def put (strm : BinStream) (bytes : List UInt8) : Option BinStream := do
  let strm ← strm.reserve bytes.length
  if strm.wptr + bytes.length ≤ strm.size then
    some { strm with
      data := writeBytes strm.data strm.wptr bytes
      wptr := strm.wptr + bytes.length
      used := strm.used + bytes.length }
  else none

def machUint8Write (strm : BinStream) (val : BitVec 8) : Option BinStream :=
  strm.put (Bytes.encode 1 val.toNat)

def machUint16Write (strm : BinStream) (val : BitVec 16) : Option BinStream :=
  strm.put (Bytes.encode 2 val.toNat)

def machUint32Write (strm : BinStream) (val : BitVec 32) : Option BinStream :=
  strm.put (Bytes.encode 4 val.toNat)

def machInt32Write (strm : BinStream) (val : BitVec 32) : Option BinStream :=
  strm.put (Bytes.encode 4 val.toNat)

def machInt64Write (strm : BinStream) (val : BitVec 64) : Option BinStream :=
  strm.put (Bytes.encode 8 val.toNat)

/-! ## Reading -/

/-- The `n` bytes at `rptr`. -/
def fetch (strm : BinStream) (n : Nat) : Option (List UInt8) :=
  if strm.rptr + n ≤ strm.used ∧ strm.rptr + n ≤ strm.size then
    some (bytesAt strm.data strm.rptr n)
  else none

/-- What the `mach_..._read` functions have in common: the number in the next
`n` bytes, or `0` if there are not as many. -/
def get (strm : BinStream) (n : Nat) : Option (Nat × BinStream) :=
  if strm.used < strm.rsize + n then some (0, strm)
  else do
    let bytes ← strm.fetch n
    some (Bytes.decode bytes,
      { strm with rptr := strm.rptr + n, rsize := strm.rsize + n })

/-- `get`, for a number of `w` bits. -/
def getBits (strm : BinStream) (n w : Nat) : Option (BitVec w × BinStream) := do
  let (val, strm) ← strm.get n
  some (BitVec.ofNat w val, strm)

def machUint8Read (strm : BinStream) : Option (BitVec 8 × BinStream) := strm.getBits 1 8

def machUint16Read (strm : BinStream) : Option (BitVec 16 × BinStream) := strm.getBits 2 16

def machUint32Read (strm : BinStream) : Option (BitVec 32 × BinStream) := strm.getBits 4 32

def machInt32Read (strm : BinStream) : Option (BitVec 32 × BinStream) := strm.getBits 4 32

def machInt64Read (strm : BinStream) : Option (BitVec 64 × BinStream) := strm.getBits 8 64

/-! ## Resizing -/

theorem growLoop_eq {newSize fuel allocSize : Nat} (hpos : 0 < allocSize)
    (hfuel : newSize ≤ allocSize + fuel) :
    ∃ size, growLoop newSize (fuel + 1) allocSize = some size ∧ newSize ≤ size ∧
      allocSize ≤ size := by
  induction fuel generalizing allocSize with
  | zero =>
      refine ⟨allocSize, ?_, hfuel, le_refl _⟩
      rw [growLoop, if_neg (by omega)]
  | succ fuel ih =>
      rw [growLoop]
      by_cases hgrow : newSize > allocSize
      · obtain ⟨size, hloop, hle, hold⟩ :=
          ih (show 0 < allocSize * 2 by omega) (by omega)
        exact ⟨size, by rw [if_pos hgrow, hloop], hle, by omega⟩
      · exact ⟨allocSize, if_neg hgrow, by omega, le_refl _⟩

/-- A stream that owns a block grows to any size. -/
theorem resize_eq (strm : BinStream) (hpos : 0 < strm.size) (newSize : Nat) :
    ∃ size wptr rptr, strm.resize newSize = some { strm with size, wptr, rptr } ∧
      newSize ≤ size ∧ strm.size ≤ size ∧
      (wptr = strm.wptr ∨ wptr = strm.used) ∧ (rptr = strm.rptr ∨ rptr = strm.rsize) := by
  unfold resize
  by_cases hle : newSize ≤ strm.size
  · exact ⟨strm.size, strm.wptr, strm.rptr, if_pos hle, hle, le_refl _, .inl rfl, .inl rfl⟩
  · obtain ⟨size, hloop, hnew, hold⟩ :=
      growLoop_eq hpos (show newSize ≤ strm.size + newSize by omega)
    refine ⟨size, strm.used, strm.rsize, ?_, hnew, hold, .inr rfl, .inr rfl⟩
    rw [if_neg hle, hloop]
    rfl

/-! ## What a stream holds -/

/-- The bytes that have been written. -/
structure Writing (strm : BinStream) (bytes : List UInt8) : Prop where
  pos : 0 < strm.size
  used : strm.used = bytes.length
  wptr : strm.wptr = bytes.length
  size : bytes.length ≤ strm.size
  data : bytesAt strm.data 0 bytes.length = bytes

/-- The bytes that can still be read. -/
structure Reading (strm : BinStream) (rest : List UInt8) : Prop where
  rptr : strm.rptr = strm.rsize
  used : strm.rsize + rest.length = strm.used
  size : strm.used ≤ strm.size
  data : bytesAt strm.data strm.rptr rest.length = rest

variable {strm : BinStream} {bytes rest : List UInt8}

theorem init_writing (data : Mem) : Writing (init data) [] :=
  ⟨Nat.succ_pos _, rfl, rfl, Nat.zero_le _, rfl⟩

/-- What has been written stays where it is, and the new bytes are behind it. -/
theorem bytesAt_writeBytes_append {m : Mem} (h : bytesAt m 0 bytes.length = bytes)
    (new : List UInt8) :
    bytesAt (writeBytes m bytes.length new) 0 (bytes ++ new).length = bytes ++ new := by
  have hold : bytesAt (writeBytes m bytes.length new) 0 bytes.length
      = bytesAt m 0 bytes.length := by
    apply bytesAt_congr
    intro a _ ha
    exact writeBytes_of_outside (.inl (by omega))
  rw [List.length_append, bytesAt_append, hold, h, Nat.zero_add, bytesAt_writeBytes]

/-- **Writing** puts the bytes behind those that are there. -/
theorem Writing.put (h : Writing strm bytes) (new : List UInt8) :
    ∃ strm', strm.put new = some strm' ∧ Writing strm' (bytes ++ new) := by
  have hwptr := h.wptr
  have hused := h.used
  have hdata := bytesAt_writeBytes_append h.data new
  -- the block after `RESIZE`
  obtain ⟨size, rptr, hreserve, hfit, hpos⟩ : ∃ size rptr,
      strm.reserve new.length = some { strm with size, rptr } ∧
      bytes.length + new.length ≤ size ∧ 0 < size := by
    by_cases hlt : strm.size < strm.used + new.length
    · obtain ⟨size, wptr, rptr, hr, hnew, hold, hw, _⟩ :=
        strm.resize_eq h.pos (strm.used + new.length)
      have hw' : wptr = strm.wptr := by omega
      rw [hw'] at hr
      exact ⟨size, rptr, (if_pos hlt).trans hr, by omega, by omega⟩
    · exact ⟨strm.size, strm.rptr, if_neg hlt, by omega, h.pos⟩
  unfold BinStream.put
  rw [hreserve]
  simp only [Option.bind_eq_bind, Option.bind_some, hwptr, hused]
  rw [if_pos hfit]
  refine ⟨_, rfl, hpos, ?_, ?_, ?_, hdata⟩
  · rw [List.length_append]
  · rw [List.length_append]
  · rwa [List.length_append]

/-- **Reading** takes a number off the front. -/
theorem Reading.get {front : List UInt8} (h : Reading strm (front ++ rest)) :
    ∃ strm', strm.get front.length = some (Bytes.decode front, strm') ∧
      Reading strm' rest ∧ strm'.size = strm.size := by
  have hused := h.used
  have hrptr := h.rptr
  have hsize := h.size
  have hdata := h.data
  rw [List.length_append] at hused hdata
  rw [bytesAt_append] at hdata
  obtain ⟨hfront, hrest⟩ := List.append_inj hdata (length_bytesAt ..)
  have hfetch : strm.fetch front.length = some front := by
    rw [fetch, if_pos ⟨by omega, by omega⟩, hfront]
  refine ⟨{ strm with
    rptr := strm.rptr + front.length
    rsize := strm.rsize + front.length }, ?_, ?_, rfl⟩
  · rw [BinStream.get, if_neg (by omega), hfetch]
    rfl
  · exact ⟨by rw [hrptr], by rw [← hused, Nat.add_assoc], hsize, hrest⟩

/-- A read past the end gives `0`, and leaves the stream as it is. -/
theorem Reading.get_short (h : Reading strm rest) {n : Nat} (hn : rest.length < n) :
    strm.get n = some (0, strm) := by
  have hused := h.used
  rw [BinStream.get, if_pos (by omega)]

/-- **No read leaves the bytes supplied**, whatever they are. -/
theorem Reading.get_total (h : Reading strm rest) (n : Nat) :
    ∃ val strm' rest', strm.get n = some (val, strm') ∧ Reading strm' rest' ∧
      strm'.size = strm.size := by
  by_cases hn : rest.length < n
  · exact ⟨0, strm, rest, h.get_short hn, h, rfl⟩
  · have hlen : (rest.take n).length = n := List.length_take_of_le (not_lt.mp hn)
    rw [← List.take_append_drop n rest] at h
    obtain ⟨strm', hget, hreading, hsize⟩ := h.get
    rw [hlen] at hget
    exact ⟨_, strm', _, hget, hreading, hsize⟩

/-- A number that has been written is read back. -/
theorem Reading.getBits {n w : Nat} {v : BitVec w}
    (h : Reading strm (Bytes.encode n v.toNat ++ rest)) (hw : 2 ^ w ≤ 256 ^ n) :
    ∃ strm', strm.getBits n w = some (v, strm') ∧ Reading strm' rest := by
  obtain ⟨strm', hget, hreading, _⟩ := h.get
  rw [Bytes.length_encode, Bytes.decode_encode_of_lt (v.isLt.trans_le hw)] at hget
  refine ⟨strm', ?_, hreading⟩
  rw [BinStream.getBits, hget, Option.bind_eq_bind, Option.bind_some]
  show some (BitVec.ofNat w v.toNat, strm') = _
  rw [BitVec.ofNat_toNat, BitVec.setWidth_eq]

theorem Reading.getBits_total (h : Reading strm rest) (n w : Nat) :
    ∃ v strm' rest', strm.getBits n w = some (v, strm') ∧ Reading strm' rest' ∧
      strm'.size = strm.size := by
  obtain ⟨val, strm', rest', hget, hreading, hsize⟩ := h.get_total n
  refine ⟨BitVec.ofNat w val, strm', rest', ?_, hreading, hsize⟩
  rw [BinStream.getBits, hget, Option.bind_eq_bind, Option.bind_some]

end BinStream

end Razor
