import RmcatNs3.Lib.StructMemory

/-!
# Network byte order

The conversions between the byte order of the host and that of the network,
and buffers that are filled by one store after another at fixed offsets.
-/

namespace NetworkOrder

open StructMemory

variable {o : ByteOrder}

/-- `htons` and `htonl`: the number whose bytes on the host are those of `v` on the
network. -/
def hton (o : ByteOrder) (width v : Nat) : Nat :=
  Bytes.decode (o.arrange (Bytes.encode width v))

/-- `ntohs` and `ntohl` -/
def ntoh (o : ByteOrder) (width v : Nat) : Nat :=
  Bytes.decode (o.arrange (Bytes.encode width v))

theorem hton_lt (o : ByteOrder) (width v : Nat) : hton o width v < 256 ^ width := by
  have h := Bytes.decode_lt (o.arrange (Bytes.encode width v))
  rwa [ByteOrder.length_arrange, Bytes.length_encode] at h

/-- **The conversions are inverse** on the numbers of their width. -/
theorem ntoh_hton {width v : Nat} (h : v < 256 ^ width) :
    ntoh o width (hton o width v) = v := by
  have hback := Bytes.encode_decode (o.arrange (Bytes.encode width v))
  rw [ByteOrder.length_arrange, Bytes.length_encode] at hback
  rw [ntoh, hton, hback, ByteOrder.arrange_arrange, Bytes.decode_encode_of_lt h]

/-- A field of one byte is that byte. -/
theorem load_byte (m : Mem) (offset : Nat) :
    Field.load o m ⟨offset, 1⟩ = (m offset).toNat := by
  cases o with
  | little => simp [Field.load, bytesAt, ByteOrder.arrange, Bytes.decode]
  | big => simp [Field.load, bytesAt, ByteOrder.arrange, Bytes.decode]

/-! ## Stores in sequence -/

def storeAll (o : ByteOrder) (m : Mem) (stores : List (Field × Nat)) : Mem :=
  stores.foldl (fun m s => s.1.store o m s.2) m

theorem load_storeAll_of_disjoint {m : Mem} {stores : List (Field × Nat)} {f : Field}
    (h : ∀ s ∈ stores, s.1.Disjoint f) : f.load o (storeAll o m stores) = f.load o m := by
  induction stores generalizing m with
  | nil => rfl
  | cons s rest ih =>
      rw [List.forall_mem_cons] at h
      exact (ih h.2).trans (Field.load_store_of_disjoint h.1)

/-- **Every one of the stored numbers is read back** if no two fields overlap. -/
theorem load_storeAll {m : Mem} {stores : List (Field × Nat)} {f : Field} {v : Nat}
    (hdisjoint : (stores.map (·.1)).Pairwise Field.Disjoint) (hmem : (f, v) ∈ stores) :
    f.load o (storeAll o m stores) = v % 256 ^ f.width := by
  induction stores generalizing m with
  | nil => exact absurd hmem (by simp)
  | cons s rest ih =>
      rw [List.map_cons, List.pairwise_cons] at hdisjoint
      rw [List.mem_cons] at hmem
      cases hmem with
      | inl heq =>
          subst heq
          have hrest : ∀ s ∈ rest, s.1.Disjoint f := by
            intro s hs
            exact (hdisjoint.1 s.1 (List.mem_map_of_mem hs)).symm
          exact (load_storeAll_of_disjoint hrest).trans (Field.load_store m f v)
      | inr hrest => exact ih hdisjoint.2 hrest

end NetworkOrder
