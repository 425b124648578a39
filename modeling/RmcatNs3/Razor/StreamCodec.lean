import RmcatNs3.Lib.BoundedArray
import RmcatNs3.Razor.BinStream

/-!
# Codecs on binary streams

Data with its length in front (`mach_data_write`, `mach_data_read`), and what it means
that a function encodes some bytes or decodes them: such functions compose, one
field behind the other.
-/

namespace Razor

open StructMemory

def readDataError : BitVec 16 := 0xffff

namespace BinStream

/-- `memcpy` to `wptr`, without `RESIZE`. -/
def append (strm : BinStream) (bytes : List UInt8) : Option BinStream :=
  if strm.wptr + bytes.length ≤ strm.size then
    some { strm with
      data := writeBytes strm.data strm.wptr bytes
      wptr := strm.wptr + bytes.length
      used := strm.used + bytes.length }
  else none

/-- `mach_data_write` of the first `size` bytes of `str`. -/
def machDataWrite {n : Nat} (strm : BinStream) (str : Vector UInt8 n) (size : Nat) :
    Option BinStream := do
  let strm ← strm.reserve (size + 2)
  let strm ← strm.machUint16Write (BitVec.ofNat 16 size)
  let bytes ← BoundedArray.loadAll str size
  strm.append bytes

/-- `mach_data_read` into `str`, of at most `size` bytes. -/
def machDataRead {n : Nat} (strm : BinStream) (str : Vector UInt8 n) (size : Nat) :
    Option ((BitVec 16 × Vector UInt8 n) × BinStream) := do
  let (len, strm) ← strm.machUint16Read
  if len.toNat > size ∨ strm.rsize + len.toNat > strm.used then
    some ((readDataError, str), strm)
  else do
    let bytes ← strm.fetch len.toNat
    let str ← BoundedArray.storeAll str 0 bytes
    some ((len, str), { strm with
      rptr := strm.rptr + len.toNat
      rsize := strm.rsize + len.toNat })

variable {strm : BinStream} {bytes rest : List UInt8}

theorem Writing.append (h : Writing strm bytes) {new : List UInt8}
    (hfit : bytes.length + new.length ≤ strm.size) :
    ∃ strm', strm.append new = some strm' ∧ Writing strm' (bytes ++ new) := by
  have hdata := bytesAt_writeBytes_append h.data new
  unfold BinStream.append
  rw [h.wptr, if_pos hfit]
  refine ⟨_, rfl, h.pos, ?_, ?_, ?_, hdata⟩
  · rw [List.length_append, h.used]
  · rw [List.length_append]
  · rwa [List.length_append]

/-- After `RESIZE` there is room for as many bytes. -/
theorem Writing.reserve (h : Writing strm bytes) (n : Nat) :
    ∃ strm', strm.reserve n = some strm' ∧ Writing strm' bytes ∧
      bytes.length + n ≤ strm'.size := by
  have hused := h.used
  have hwptr := h.wptr
  unfold BinStream.reserve
  by_cases hlt : strm.size < strm.used + n
  · obtain ⟨size, wptr, rptr, hr, hnew, hold, hw, -⟩ := strm.resize_eq h.pos (strm.used + n)
    have hsize := h.size
    have hpos := h.pos
    refine ⟨{ strm with size, wptr, rptr }, (if_pos hlt).trans hr, ?_, by dsimp only; omega⟩
    exact ⟨by dsimp only; omega, h.used, by dsimp only; omega, by dsimp only; omega, h.data⟩
  · exact ⟨strm, if_neg hlt, h, by omega⟩

/-- A write that has room keeps the block. -/
theorem Writing.put_size (h : Writing strm bytes) {new : List UInt8}
    (hfit : bytes.length + new.length ≤ strm.size) :
    ∃ strm', strm.put new = some strm' ∧ Writing strm' (bytes ++ new) ∧
      strm'.size = strm.size := by
  have hused := h.used
  obtain ⟨strm', happend, hw⟩ := h.append hfit
  have hreserve : strm.reserve new.length = some strm := if_neg (by omega)
  have hput : strm.put new = some strm' := by
    unfold BinStream.put
    rw [hreserve]
    exact happend
  refine ⟨strm', hput, hw, ?_⟩
  unfold BinStream.append at happend
  rw [h.wptr, if_pos hfit, Option.some.injEq] at happend
  rw [← happend]

/-! ## Encoding and decoding -/

/-- `enc` writes the bytes `wire` behind those that are there. -/
def Encodes (enc : BinStream → Option BinStream) (wire : List UInt8) : Prop :=
  ∀ strm bytes, Writing strm bytes → ∃ strm', enc strm = some strm' ∧
    Writing strm' (bytes ++ wire)

/-- `dec` takes the bytes `wire` off the front and makes `a` of them. -/
def Decodes {α : Type} (dec : BinStream → Option (α × BinStream)) (wire : List UInt8) (a : α) :
    Prop :=
  ∀ strm rest, Reading strm (wire ++ rest) → ∃ strm', dec strm = some (a, strm') ∧
    Reading strm' rest

theorem Encodes.nil : Encodes some [] := by
  intro strm bytes h
  exact ⟨strm, rfl, by rwa [List.append_nil]⟩

theorem Encodes.put (bytes : List UInt8) : Encodes (fun strm => strm.put bytes) bytes :=
  fun _ _ h => h.put bytes

theorem Encodes.bind {enc₁ enc₂ : BinStream → Option BinStream} {wire₁ wire₂ : List UInt8}
    (h₁ : Encodes enc₁ wire₁) (h₂ : Encodes enc₂ wire₂) :
    Encodes (fun strm => (enc₁ strm).bind enc₂) (wire₁ ++ wire₂) := by
  intro strm bytes h
  obtain ⟨strm₁, henc₁, hw₁⟩ := h₁ strm bytes h
  obtain ⟨strm₂, henc₂, hw₂⟩ := h₂ strm₁ _ hw₁
  rw [List.append_assoc] at hw₂
  refine ⟨strm₂, ?_, hw₂⟩
  show (enc₁ strm).bind enc₂ = _
  rw [henc₁, Option.bind_some, henc₂]

theorem Decodes.getBits {n w : Nat} (v : BitVec w) (hw : 2 ^ w ≤ 256 ^ n) :
    Decodes (fun strm => strm.getBits n w) (Bytes.encode n v.toNat) v :=
  fun _ _ h => h.getBits hw

theorem Decodes.map {α β : Type} {dec : BinStream → Option (α × BinStream)} {wire : List UInt8}
    {a : α} (f : α → β) (h : Decodes dec wire a) :
    Decodes (fun strm => (dec strm).bind fun p => some (f p.1, p.2)) wire (f a) := by
  intro strm rest hr
  obtain ⟨strm', hdec, hr'⟩ := h strm rest hr
  refine ⟨strm', ?_, hr'⟩
  show (dec strm).bind _ = _
  rw [hdec, Option.bind_some]

/-! ## Data with its length -/

/-- The bytes of an array of which `size` are used. -/
def wireData {n : Nat} (str : Vector UInt8 n) (size : Nat) : List UInt8 :=
  Bytes.encode 2 size ++ str.toList.take size

theorem encodes_data {n : Nat} (str : Vector UInt8 n) {size : Nat} (hn : size ≤ n)
    (hsize : size < 2 ^ 16) :
    Encodes (fun strm => strm.machDataWrite str size) (wireData str size) := by
  intro strm bytes h
  have hlen : (str.toList.take size).length = size := by simp [hn]
  have hload : BoundedArray.loadAll str size = some (str.toList.take size) := if_pos hn
  have hnum : (BitVec.ofNat 16 size).toNat = size := by
    rw [BitVec.toNat_ofNat, Nat.mod_eq_of_lt hsize]
  obtain ⟨strm₁, hreserve, hw₁, hroom⟩ := h.reserve (size + 2)
  obtain ⟨strm₂, hput, hw₂, hkept⟩ := @hw₁.put_size _ _ (Bytes.encode 2 size)
    (by rw [Bytes.length_encode]; omega)
  obtain ⟨strm₃, happend, hw₃⟩ := @Writing.append strm₂ _ hw₂ (str.toList.take size)
    (by rw [List.length_append, Bytes.length_encode, hlen]; omega)
  refine ⟨strm₃, ?_, by rwa [wireData, ← List.append_assoc]⟩
  simp only [machDataWrite, hreserve, machUint16Write, hnum, hput, hload, happend,
    Option.bind_eq_bind, Option.bind_some]

/-- What is read of some data: its length, and the array with the data in front. -/
theorem decodes_data {n size : Nat} (str old : Vector UInt8 n)
    (hn : size ≤ n) (hsize : size < 2 ^ 16) :
    ∃ str', Decodes (fun strm => strm.machDataRead old n) (wireData str size)
        (BitVec.ofNat 16 size, str') ∧
      ∀ i, i < size → BoundedArray.load str' i = BoundedArray.load str i := by
  have hlen : (str.toList.take size).length = size := by simp [hn]
  have hnum : (BitVec.ofNat 16 size).toNat = size := by
    rw [BitVec.toNat_ofNat, Nat.mod_eq_of_lt hsize]
  obtain ⟨str', hstore, hnew, -⟩ := BoundedArray.storeAll_eq (a := old) (i := 0)
    (show 0 + (str.toList.take size).length ≤ n by omega)
  refine ⟨str', ?_, ?_⟩
  · intro strm rest h
    rw [wireData, List.append_assoc, ← hnum] at h
    obtain ⟨strm₁, hget, hr₁⟩ := h.getBits (by decide)
    rw [hnum] at hr₁
    have hused := hr₁.used
    have hsz := hr₁.size
    have hrptr := hr₁.rptr
    have hdata := hr₁.data
    rw [List.length_append, hlen] at hused hdata
    rw [bytesAt_append] at hdata
    obtain ⟨hfront, hrest⟩ := List.append_inj hdata (by rw [length_bytesAt, hlen])
    have hfetch : strm₁.fetch size = some (str.toList.take size) := by
      rw [fetch, if_pos ⟨by omega, by omega⟩, hfront]
    refine ⟨{ strm₁ with
      rptr := strm₁.rptr + size
      rsize := strm₁.rsize + size }, ?_, ?_⟩
    · simp only [machDataRead, machUint16Read, hget, hnum, Option.bind_eq_bind,
        Option.bind_some]
      rw [if_neg (by omega), hfetch, Option.bind_some, hstore, Option.bind_some]
    · exact ⟨by rw [hrptr], by rw [← hused, Nat.add_assoc], hsz, hrest⟩
  · intro i hi
    have hload := hnew i (by rw [hlen]; exact hi)
    rw [Nat.zero_add] at hload
    rw [hload, List.getElem?_take_of_lt hi, BoundedArray.load]
    simp

end BinStream

end Razor
