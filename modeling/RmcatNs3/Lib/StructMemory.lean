import RmcatNs3.Lib.Bytes

/-!
# Structs in byte memory

A C struct as the bytes it occupies: fields at fixed offsets, holding
unsigned numbers in the byte order of the host. Reading a field sees what
was last stored in it, stores to other places do not disturb it, and a copy
of a prefix of the memory copies the fields inside that prefix.
-/

namespace StructMemory

/-- Memory, byte by byte, from the start of an object. -/
abbrev Mem := Nat → UInt8

/-- The byte order of the host. -/
inductive ByteOrder where
  | little
  | big
  deriving DecidableEq, Repr

/-- Bytes in significance order as they lie in memory, and back. -/
def ByteOrder.arrange : ByteOrder → List UInt8 → List UInt8
  | .little, bs => bs.reverse
  | .big, bs => bs

@[simp] theorem ByteOrder.arrange_arrange (o : ByteOrder) (bs : List UInt8) :
    o.arrange (o.arrange bs) = bs := by
  cases o with
  | little => exact List.reverse_reverse bs
  | big => rfl

@[simp] theorem ByteOrder.length_arrange (o : ByteOrder) (bs : List UInt8) :
    (o.arrange bs).length = bs.length := by
  cases o with
  | little => exact List.length_reverse
  | big => rfl

/-! ## Bytes -/

/-- The `n` bytes from `offset` on. -/
def bytesAt (m : Mem) (offset n : Nat) : List UInt8 :=
  (List.range n).map fun i => m (offset + i)

/-- The memory after `bs` has been written from `offset` on. -/
def writeBytes (m : Mem) (offset : Nat) (bs : List UInt8) : Mem :=
  fun a => if offset ≤ a then (bs[a - offset]?).getD (m a) else m a

/-- `memcpy` of the first `n` bytes. -/
def memcpy (dst src : Mem) (n : Nat) : Mem :=
  fun a => if a < n then src a else dst a

@[simp] theorem length_bytesAt (m : Mem) (offset n : Nat) :
    (bytesAt m offset n).length = n := by
  simp [bytesAt]

theorem bytesAt_congr {m m' : Mem} {offset n : Nat}
    (h : ∀ a, offset ≤ a → a < offset + n → m a = m' a) :
    bytesAt m offset n = bytesAt m' offset n := by
  apply List.map_congr_left
  intro i hi
  rw [List.mem_range] at hi
  exact h _ (by omega) (by omega)

theorem bytesAt_writeBytes (m : Mem) (offset : Nat) (bs : List UInt8) :
    bytesAt (writeBytes m offset bs) offset bs.length = bs := by
  apply List.ext_getElem
  · exact length_bytesAt _ _ _
  · intro i h1 h2
    simp [bytesAt, writeBytes, h2]

theorem writeBytes_of_outside {m : Mem} {offset a : Nat} {bs : List UInt8}
    (h : a < offset ∨ offset + bs.length ≤ a) : writeBytes m offset bs a = m a := by
  unfold writeBytes
  split
  · rw [List.getElem?_eq_none (by omega), Option.getD_none]
  · rfl

theorem bytesAt_append (m : Mem) (offset n k : Nat) :
    bytesAt m offset (n + k) = bytesAt m offset n ++ bytesAt m (offset + n) k := by
  simp only [bytesAt, List.range_add, List.map_append, List.map_map]
  congr 1
  apply List.map_congr_left
  intro i _
  simp only [Function.comp_apply, Nat.add_assoc]

/-! ## Fields -/

/-- A scalar member of a struct. -/
structure Field where
  offset : Nat
  width : Nat
  deriving DecidableEq, Repr

/-- An array member of a struct. -/
structure ArrayField where
  offset : Nat
  width : Nat
  capacity : Nat
  deriving DecidableEq, Repr

/-- The element at index `i`, inside the array or not. -/
def ArrayField.elem (a : ArrayField) (i : Nat) : Field :=
  ⟨a.offset + i * a.width, a.width⟩

namespace Field

variable (o : ByteOrder)

def load (m : Mem) (f : Field) : Nat :=
  Bytes.decode (o.arrange (bytesAt m f.offset f.width))

def store (m : Mem) (f : Field) (v : Nat) : Mem :=
  writeBytes m f.offset (o.arrange (Bytes.encode f.width v))

/-- Two fields that share no byte. -/
def Disjoint (f g : Field) : Prop :=
  f.offset + f.width ≤ g.offset ∨ g.offset + g.width ≤ f.offset

instance (f g : Field) : Decidable (f.Disjoint g) :=
  inferInstanceAs (Decidable (_ ∨ _))

variable {o}

theorem Disjoint.symm {f g : Field} (h : f.Disjoint g) : g.Disjoint f :=
  Or.symm h

theorem load_lt (m : Mem) (f : Field) : f.load o m < 256 ^ f.width := by
  have h := Bytes.decode_lt (o.arrange (bytesAt m f.offset f.width))
  rwa [ByteOrder.length_arrange, length_bytesAt] at h

/-- A field is determined by its own bytes. -/
theorem load_congr {m m' : Mem} {f : Field}
    (h : ∀ a, f.offset ≤ a → a < f.offset + f.width → m a = m' a) :
    f.load o m = f.load o m' := by
  rw [load, load, bytesAt_congr h]

/-- **A load sees the last store** to its field. -/
theorem load_store (m : Mem) (f : Field) (v : Nat) :
    f.load o (f.store o m v) = v % 256 ^ f.width := by
  have hlen : (o.arrange (Bytes.encode f.width v)).length = f.width := by simp
  have h := bytesAt_writeBytes m f.offset (o.arrange (Bytes.encode f.width v))
  rw [hlen] at h
  rw [load, store, h, ByteOrder.arrange_arrange, Bytes.decode_encode]

/-- **A store leaves other fields alone.** -/
theorem load_store_of_disjoint {m : Mem} {f g : Field} {v : Nat}
    (h : f.Disjoint g) : g.load o (f.store o m v) = g.load o m := by
  apply load_congr
  intro a ha ha'
  apply writeBytes_of_outside
  rw [ByteOrder.length_arrange, Bytes.length_encode]
  rcases h with h | h
  · exact .inr (by omega)
  · exact .inl (by omega)

theorem load_memcpy {dst src : Mem} {n : Nat} {f : Field}
    (h : f.offset + f.width ≤ n) : f.load o (memcpy dst src n) = f.load o src := by
  apply load_congr
  intro a _ ha
  exact if_pos (by omega)

/-- The second byte of a 16-bit number matters in both byte orders. -/
theorem decode_arrange_ne (o : ByteOrder) (b : UInt8) :
    Bytes.decode (o.arrange [b, 0]) ≠ Bytes.decode (o.arrange [b, 1]) := by
  cases o <;> simp [ByteOrder.arrange, Bytes.decode]

/-- **A copy that ends within a number** leaves part of it to what the destination
held. -/
theorem load_memcpy_split (o : ByteOrder) (src : Mem) (offset : Nat) :
    load o (memcpy (fun _ => 0) src (offset + 1)) ⟨offset, 2⟩ ≠
      load o (memcpy (fun _ => 1) src (offset + 1)) ⟨offset, 2⟩ := by
  have hbytes : ∀ v : UInt8, bytesAt (memcpy (fun _ => v) src (offset + 1)) offset 2
      = [src offset, v] := by
    intro v
    show [memcpy _ src _ offset, memcpy _ src _ (offset + 1)] = _
    rw [memcpy, if_pos (Nat.lt_add_one offset), memcpy, if_neg (Nat.lt_irrefl _)]
  rw [load, load]
  dsimp only
  rw [hbytes, hbytes]
  exact decode_arrange_ne o _

end Field

/-! ## Structs -/

/-- The layout of a struct: its scalar members, the array it may end with and
the member that holds the array's length, and its `sizeof`. -/
structure Struct where
  fields : List Field
  array : Option (Field × ArrayField)
  size : Nat
  fits : ∀ f ∈ fields, f.offset + f.width ≤ size
  disjoint : fields.Pairwise Field.Disjoint
  array_fits : ∀ c a, array = some (c, a) → c ∈ fields ∧
    (∀ f ∈ fields, f.offset + f.width ≤ a.offset) ∧
    a.offset + a.capacity * a.width ≤ size

/-- Two elements of an array share no byte. -/
theorem ArrayField.elem_disjoint (a : ArrayField) {i j : Nat} (h : i ≠ j) :
    (a.elem i).Disjoint (a.elem j) := by
  unfold elem Field.Disjoint
  rcases Nat.lt_or_gt_of_ne h with hlt | hgt
  · left
    have := Nat.mul_le_mul_right a.width (Nat.succ_le_of_lt hlt)
    rw [Nat.succ_mul] at this
    dsimp only
    omega
  · right
    have := Nat.mul_le_mul_right a.width (Nat.succ_le_of_lt hgt)
    rw [Nat.succ_mul] at this
    dsimp only
    omega

/-- The first `n` elements of an array. -/
def ArrayField.elems (a : ArrayField) (n : Nat) : List Field :=
  (List.range n).map a.elem

theorem ArrayField.elems_disjoint (a : ArrayField) (n : Nat) :
    (a.elems n).Pairwise Field.Disjoint := by
  unfold elems
  rw [List.pairwise_map]
  exact List.nodup_range.imp fun h => a.elem_disjoint h

namespace Struct

variable (o : ByteOrder) (s : Struct)

/-- The members that carry meaning: the scalars, and as many elements of the
array as its length says. -/
def members (m : Mem) : List Field :=
  s.fields ++ match s.array with
    | none => []
    | some (c, a) => a.elems (c.load o m)

/-- The length of the array is in range. -/
def InRange (m : Mem) : Prop :=
  ∀ c a, s.array = some (c, a) → c.load o m ≤ a.capacity

/-- Every meaningful member of `m` has the same value in `m'`. -/
def Same (m m' : Mem) : Prop :=
  ∀ f ∈ s.members o m, f.load o m = f.load o m'

variable {o s}

theorem Same.members_eq {m m' : Mem} (h : s.Same o m m') :
    s.members o m' = s.members o m := by
  unfold members
  cases ha : s.array with
  | none => rfl
  | some p =>
      obtain ⟨c, a⟩ := p
      have hc : c ∈ s.members o m :=
        List.mem_append_left _ (s.array_fits c a ha).1
      dsimp only
      rw [h c hc]

theorem Same.trans {m₁ m₂ m₃ : Mem} (h₁ : s.Same o m₁ m₂)
    (h₂ : s.Same o m₂ m₃) : s.Same o m₁ m₃ := by
  intro f hf
  rw [h₁ f hf]
  exact h₂ f (h₁.members_eq ▸ hf)

theorem Same.inRange {m m' : Mem} (h : s.Same o m m') (hr : s.InRange o m) :
    s.InRange o m' := by
  intro c a ha
  rw [← h c (List.mem_append_left _ (s.array_fits c a ha).1)]
  exact hr c a ha

/-- A copy that reaches to the end of every meaningful member. -/
theorem same_memcpy {dst src : Mem} {n : Nat}
    (h : ∀ f ∈ s.members o src, f.offset + f.width ≤ n) :
    s.Same o src (memcpy dst src n) :=
  fun f hf => (Field.load_memcpy (h f hf)).symm

end Struct

end StructMemory
