import RmcatNs3.Razor.HeaderReading

/-!
# The bounds of `Deserialize`

Which bytes of the wire make `Deserialize` store outside of `m_message` or of
the array it fills, or read on past the size it reports. The three lengths on
the wire decide; nothing checks them.
-/

namespace Razor

open StructMemory

namespace RazorHeader

variable {o : ByteOrder} {buf : Mem}

/-- A store inside `m_message`, and inside the array if it fills one. -/
def Store.InBounds (s : Store) : Prop :=
  s.field.offset + s.field.width ≤ maxMsglen ∧
    ∀ index capacity, s.element = some (index, capacity) → index < capacity

/-- No store is out of bounds, and no more bytes are consumed than
`Packet::RemoveHeader` is told. -/
def Deserialized.InBounds (d : Deserialized) : Prop :=
  (∀ s ∈ d.reading.stores, s.InBounds) ∧ d.reading.pos ≤ d.size

/-- The length of the array of a message, as the wire gives it: `token_size`
and `feedback_size` stand behind the header and four bytes, `nack_num` behind
eight. -/
def wireLength (k : RazorProtoType) (buf : Mem) : Nat :=
  match k with
  | .connect | .feedback => Bytes.decode (bytesAt buf 10 2)
  | .segAck => Bytes.decode (bytesAt buf 14 1)
  | _ => 0

/-- The capacity of the array of a message. -/
def capacity (k : RazorProtoType) : Nat :=
  match k.struct.array with
  | none => 0
  | some (_, a) => a.capacity

/-- A number just read is what the wire says. -/
theorem load_get (f : Field) (element : Option (Nat × Nat)) (r : Reading) :
    f.load o (get o buf f element r).message
      = Bytes.decode (bytesAt buf r.pos f.width) := by
  have hlt := Bytes.decode_lt (bytesAt buf r.pos f.width)
  rw [length_bytesAt] at hlt
  show f.load o (f.store o r.message _) = _
  rw [Field.load_store, Nat.mod_eq_of_lt hlt]

/-- The count that the loop runs to is the length on the wire. -/
theorem load_count {k : RazorProtoType} {c : Field} {a : ArrayField}
    (ha : k.struct.array = some (c, a)) (message : Mem) :
    c.load o (getAll o buf (scalarReads k) ⟨6, message, []⟩).message
      = wireLength k buf := by
  cases k <;> cases ha <;> exact load_get _ none _

/-- **The stores** of `Deserialize` are its scalars and the elements up to the
length on the wire. -/
theorem deserializeBody_stores (k : RazorProtoType) (message : Mem) :
    (deserializeBody o k buf ⟨6, message, []⟩).stores
      = (scalarReads k ++ match k.struct.array with
        | none => []
        | some (_, a) => elementReads a (wireLength k buf)).map
          fun f => ⟨f.1, f.2⟩ := by
  rw [deserializeBody_eq]
  cases ha : k.struct.array with
  | none => simp [getAll_stores]
  | some p =>
      obtain ⟨c, a⟩ := p
      simp [getAll_stores, load_count ha]

/-- The bytes that `Deserialize` consumes. -/
theorem deserializeBody_pos (k : RazorProtoType) (message : Mem) :
    (deserializeBody o k buf ⟨6, message, []⟩).pos
      = 6 + ((wireFields k).map (·.width)).sum + match k.struct.array with
        | none => 0
        | some (_, a) => wireLength k buf * a.width := by
  have hscalars : (scalarReads k).map (·.1.width) = (wireFields k).map (·.width) := by
    rw [scalarReads, List.map_map]
    rfl
  rw [deserializeBody_eq]
  cases ha : k.struct.array with
  | none => simp [getAll_pos, hscalars]
  | some p =>
      obtain ⟨c, a⟩ := p
      have hconst : (elementReads a (wireLength k buf)).map (·.1.width)
          = List.replicate (wireLength k buf) a.width := by
        rw [elementReads, List.map_map]
        refine List.map_const'.trans ?_
        rw [List.length_range]
      simp [getAll_pos, hscalars, load_count ha, hconst]

/-- The scalars of every message lie inside `m_message`. -/
theorem wireFields_le (k : RazorProtoType) :
    ∀ f ∈ wireFields k, f.offset + f.width ≤ maxMsglen := by
  cases k <;> decide

/-- Every struct lies inside `m_message`. -/
theorem size_le_maxMsglen (k : RazorProtoType) : k.struct.size ≤ maxMsglen := by
  cases k <;> decide

/-- The header, the scalars and a full array fit the reported size. -/
theorem wire_le_size (k : RazorProtoType) :
    ((wireFields k).map (·.width)).sum + (match k.struct.array with
      | none => 0
      | some (_, a) => a.capacity * a.width) ≤ k.struct.size := by
  cases k <;> decide

theorem getSerializedSize_eq (k : RazorProtoType) (ver : UInt8) (uid : UInt32)
    (message : Mem) :
    getSerializedSize ⟨ver, k.mid, uid, message⟩ = 6 + k.struct.size := by
  cases k <;> rfl

/-- The message kind that the second byte on the wire selects, if any. -/
theorem deserialize_some {h : RazorHeader} {k : RazorProtoType}
    (hk : RazorProtoType.ofMid (buf 1) = some k) :
    (h.deserialize o buf).reading = deserializeBody o k buf ⟨6, h.message, []⟩ ∧
      (h.deserialize o buf).size = 6 + k.struct.size := by
  have hmid : buf 1 = k.mid := by
    have := List.find?_some hk
    exact (beq_iff_eq.mp this).symm
  constructor
  · simp only [deserialize, hk]
  · show getSerializedSize ⟨_, buf 1, _, _⟩ = _
    rw [hmid, getSerializedSize_eq]

/-- The lengths of the messages without an array are not read. -/
theorem wireLength_of_none {k : RazorProtoType} (h : k.struct.array = none) :
    wireLength k buf = 0 := by
  cases k <;> first | rfl | cases h

/-- The condition is enough. -/
theorem inBounds_of_le {h : RazorHeader} {k : RazorProtoType}
    (hk : RazorProtoType.ofMid (buf 1) = some k)
    (hle : wireLength k buf ≤ capacity k) : (h.deserialize o buf).InBounds := by
  obtain ⟨hreading, hsize⟩ := deserialize_some (o := o) (h := h) hk
  have hfit := wire_le_size k
  rw [Deserialized.InBounds, hreading, hsize, deserializeBody_stores,
    deserializeBody_pos]
  unfold capacity at hle
  cases ha : k.struct.array with
  | none =>
      rw [ha] at hfit
      dsimp only at hfit ⊢
      rw [List.append_nil]
      refine ⟨?_, by omega⟩
      intro s hs
      obtain ⟨r, hr, rfl⟩ := List.mem_map.mp hs
      obtain ⟨f, hf, rfl⟩ := List.mem_map.mp hr
      exact ⟨wireFields_le k f hf, nofun⟩
  | some p =>
      obtain ⟨c, a⟩ := p
      rw [ha] at hfit hle
      dsimp only at hfit hle ⊢
      have harray := (k.struct.array_fits c a ha).2.2
      have hmax := size_le_maxMsglen k
      have hmul := Nat.mul_le_mul_right a.width hle
      refine ⟨?_, by omega⟩
      intro s hs
      obtain ⟨r, hr, rfl⟩ := List.mem_map.mp hs
      rcases List.mem_append.mp hr with hr | hr
      · obtain ⟨f, hf, rfl⟩ := List.mem_map.mp hr
        exact ⟨wireFields_le k f hf, nofun⟩
      · obtain ⟨i, hi, rfl⟩ := List.mem_map.mp hr
        have hi' : i < a.capacity := Nat.lt_of_lt_of_le (List.mem_range.mp hi) hle
        have hend := Nat.mul_le_mul_right a.width (Nat.succ_le_of_lt hi')
        rw [Nat.succ_mul] at hend
        constructor
        · show a.offset + i * a.width + a.width ≤ maxMsglen
          omega
        · intro index cap hslot
          cases hslot
          exact hi'

/-- A longer list has an element with the index `capacity`. -/
theorem le_of_inBounds {h : RazorHeader} {k : RazorProtoType}
    (hk : RazorProtoType.ofMid (buf 1) = some k)
    (hin : (h.deserialize o buf).InBounds) : wireLength k buf ≤ capacity k := by
  have hstores := hin.1
  rw [(deserialize_some (o := o) (h := h) hk).1, deserializeBody_stores] at hstores
  unfold capacity
  cases ha : k.struct.array with
  | none => exact Nat.le_of_eq (wireLength_of_none ha)
  | some p =>
      obtain ⟨c, a⟩ := p
      rw [ha] at hstores
      dsimp only at hstores ⊢
      by_contra hlong
      have hread : (a.elem a.capacity, some (a.capacity, a.capacity))
          ∈ elementReads a (wireLength k buf) :=
        List.mem_map.mpr ⟨a.capacity, List.mem_range.mpr (Nat.not_le.mp hlong), rfl⟩
      have hslot := hstores _ (List.mem_map_of_mem (List.mem_append_right _ hread))
      exact Nat.lt_irrefl _ (hslot.2 _ _ rfl)

/-- **When `Deserialize` stays in bounds**: exactly when the length on the
wire, if the message has one, is at most the capacity of its array. -/
theorem deserialize_inBounds_iff (h : RazorHeader) (buf : Mem) :
    (h.deserialize o buf).InBounds ↔
      ∀ k, RazorProtoType.ofMid (buf 1) = some k →
        wireLength k buf ≤ capacity k := by
  constructor
  · intro hin k hk
    exact le_of_inBounds hk hin
  · intro hle
    cases hk : RazorProtoType.ofMid (buf 1) with
    | none =>
        have hreading : (h.deserialize o buf).reading = ⟨6, h.message, []⟩ := by
          simp only [deserialize, hk]
        have hsize : (h.deserialize o buf).size = 6 := by
          simp only [deserialize, getSerializedSize, hk]
        rw [Deserialized.InBounds, hreading, hsize]
        exact ⟨nofun, Nat.le_refl 6⟩
    | some k => exact inBounds_of_le hk (hle k hk)

/-- A `connect` whose token size is `0xFFFF`, on the wire. -/
def hugeToken : Mem := fun a => if a = 1 then 1 else 0xFF

/-- A token size of `0xFFFF` leads `Deserialize` out of the token array. -/
theorem deserialize_hugeToken :
    ¬ ((new 0 0).deserialize .little hugeToken).InBounds := by
  intro hin
  exact absurd (le_of_inBounds (k := .connect) rfl hin) (by decide)

end RazorHeader

end Razor
