import RmcatNs3.Razor.RazorHeader

/-!
# What `Deserialize` reads

`Deserialize` reads the members of a message one after the other. `getAll`
is that loop, and its lemmas say where the iterator ends, which stores were
made, and what every member holds afterwards.
-/

namespace Razor

open StructMemory

namespace RazorHeader

variable {o : ByteOrder} {buf : Mem}

/-- A list of reads, each with the array slot it fills. -/
def getAll (o : ByteOrder) (buf : Mem) (reads : List (Field × Option (Nat × Nat)))
    (r : Reading) : Reading :=
  reads.foldl (fun r f => get o buf f.1 f.2 r) r

/-- The scalar members that a message puts on the wire, in wire order. -/
def wireFields : RazorProtoType → List Field
  | .disconnectAck => [SimConnectAck.cid]
  | k => k.struct.fields

def scalarReads (k : RazorProtoType) : List (Field × Option (Nat × Nat)) :=
  (wireFields k).map fun f => (f, none)

/-- The reads of the first `n` elements of an array. -/
def elementReads (a : ArrayField) (n : Nat) : List (Field × Option (Nat × Nat)) :=
  (List.range n).map fun i => (a.elem i, some (i, a.capacity))

theorem getArray_eq (a : ArrayField) (n : Nat) (r : Reading) :
    getArray o buf a n r = getAll o buf (elementReads a n) r := by
  rw [getArray, getAll, elementReads, List.foldl_map]

/-- **The reads of a message**: its scalars, then as many elements as the
scalars just read say. -/
theorem deserializeBody_eq (k : RazorProtoType) (r : Reading) :
    deserializeBody o k buf r =
      let r₁ := getAll o buf (scalarReads k) r
      match k.struct.array with
      | none => r₁
      | some (c, a) => getAll o buf (elementReads a (c.load o r₁.message)) r₁ := by
  cases k <;> first | rfl | exact getArray_eq _ _ _

@[simp] theorem getAll_cons (f : Field × Option (Nat × Nat))
    (rest : List (Field × Option (Nat × Nat))) (r : Reading) :
    getAll o buf (f :: rest) r = getAll o buf rest (get o buf f.1 f.2 r) := rfl

theorem getAll_pos (reads : List (Field × Option (Nat × Nat))) (r : Reading) :
    (getAll o buf reads r).pos = r.pos + (reads.map (·.1.width)).sum := by
  induction reads generalizing r with
  | nil => rfl
  | cons f rest ih =>
      rw [getAll_cons, ih, List.map_cons, List.sum_cons, ← Nat.add_assoc]
      rfl

theorem getAll_stores (reads : List (Field × Option (Nat × Nat))) (r : Reading) :
    (getAll o buf reads r).stores
      = r.stores ++ reads.map fun f => ⟨f.1, f.2⟩ := by
  induction reads generalizing r with
  | nil => simp [getAll]
  | cons f rest ih =>
      rw [getAll_cons, ih]
      simp [get]

/-- A member that no read touches keeps its value. -/
theorem load_getAll_of_disjoint {reads : List (Field × Option (Nat × Nat))}
    {g : Field} (h : ∀ f ∈ reads, f.1.Disjoint g) (r : Reading) :
    g.load o (getAll o buf reads r).message = g.load o r.message := by
  induction reads generalizing r with
  | nil => rfl
  | cons f rest ih =>
      rw [getAll_cons, ih (fun f' hf' => h f' (List.mem_cons_of_mem _ hf'))]
      exact Field.load_store_of_disjoint (h f List.mem_cons_self)

/-- **Reading back**: members that share no byte, read from a buffer that
holds the values they have in `m`, get these values. -/
theorem load_getAll {m : Mem} {reads : List (Field × Option (Nat × Nat))}
    (hdisj : (reads.map (·.1)).Pairwise Field.Disjoint) (r : Reading)
    (hbuf : bytesAt buf r.pos (reads.map (·.1.width)).sum
      = reads.flatMap fun f => put o m f.1)
    {f : Field} (hf : f ∈ reads.map (·.1)) :
    f.load o (getAll o buf reads r).message = f.load o m := by
  induction reads generalizing r with
  | nil => cases hf
  | cons g rest ih =>
      rw [List.map_cons, List.pairwise_cons] at hdisj
      rw [List.map_cons, List.sum_cons, bytesAt_append, List.flatMap_cons] at hbuf
      obtain ⟨hhead, hrest⟩ := List.append_inj hbuf (by simp [put])
      rw [getAll_cons]
      rcases List.mem_cons.mp hf with rfl | hf
      · -- the value is stored here, and the later reads leave it alone
        rw [load_getAll_of_disjoint]
        · show g.1.load o (g.1.store o r.message _) = _
          rw [hhead, put, Field.load_store, Bytes.decode_encode, Nat.mod_mod,
            Nat.mod_eq_of_lt (Field.load_lt m g.1)]
        · intro f' hf'
          exact (hdisj.1 f'.1 (List.mem_map_of_mem hf')).symm
      · exact ih hdisj.2 _ hrest hf

/-! ## Structs on the wire -/

@[simp] theorem map_elementReads (a : ArrayField) (n : Nat) :
    (elementReads a n).map (·.1) = a.elems n := by
  simp [elementReads, ArrayField.elems]

theorem length_flatMap_put (m : Mem) (reads : List (Field × Option (Nat × Nat))) :
    (reads.flatMap fun f => put o m f.1).length
      = (reads.map (·.1.width)).sum := by
  simp [put, List.length_flatMap]

/-- An array element lies behind the scalars. -/
theorem field_disjoint_elem {s : Struct} {c f : Field} {a : ArrayField}
    (ha : s.array = some (c, a)) (hf : f ∈ s.fields) (i : Nat) :
    (a.elem i).Disjoint f := by
  have := (s.array_fits c a ha).2.1 f hf
  right
  show f.offset + f.width ≤ a.offset + i * a.width
  omega

/-- The bytes of a struct: some of its scalars, then the elements of its array. -/
def putStruct (o : ByteOrder) (s : Struct) (fields : List Field) (m : Mem) : List UInt8 :=
  (fields.map fun f => (f, none)).flatMap (fun f : Field × Option (Nat × Nat) => put o m f.1)
    ++ match s.array with
      | none => []
      | some (c, a) => (elementReads a (c.load o m)).flatMap fun f => put o m f.1

def getStruct (o : ByteOrder) (s : Struct) (fields : List Field) (buf : Mem) (r : Reading) :
    Reading :=
  let r₁ := getAll o buf (fields.map fun f => (f, none)) r
  match s.array with
  | none => r₁
  | some (c, a) => getAll o buf (elementReads a (c.load o r₁.message)) r₁

/-- **Reading inverts writing** on every member that is on the wire. -/
theorem load_getStruct {s : Struct} {fields : List Field} {m : Mem} {r : Reading}
    (hdisjoint : fields.Pairwise Field.Disjoint)
    (harray : ∀ p, s.array = some p → fields = s.fields)
    (hbuf : bytesAt buf r.pos (putStruct o s fields m).length = putStruct o s fields m)
    {f : Field} (hf : f ∈ s.members o m) (hwire : f ∈ s.fields → f ∈ fields) :
    f.load o (getStruct o s fields buf r).message = f.load o m := by
  have hmap : (fields.map fun f => ((f, none) : Field × Option (Nat × Nat))).map (·.1)
      = fields := by
    rw [List.map_map]
    exact List.map_id _
  unfold putStruct at hbuf
  rw [List.length_append, bytesAt_append] at hbuf
  obtain ⟨hscalars, hrest⟩ := List.append_inj hbuf (by simp)
  rw [length_flatMap_put] at hscalars hrest
  have hload : ∀ g ∈ fields, g.load o
      (getAll o buf (fields.map fun f => (f, none)) r).message = g.load o m := by
    intro g hg
    exact load_getAll (by rw [hmap]; exact hdisjoint) r hscalars (by rw [hmap]; exact hg)
  unfold getStruct
  unfold Struct.members at hf
  cases ha : s.array with
  | none =>
      rw [ha] at hf
      rw [List.append_nil] at hf
      exact hload f (hwire hf)
  | some p =>
      obtain ⟨c, a⟩ := p
      have hfields := harray _ ha
      have hc : c ∈ fields := hfields ▸ (s.array_fits c a ha).1
      rw [ha] at hf hrest
      dsimp only at hf hrest ⊢
      rw [length_flatMap_put] at hrest
      rw [hload c hc]
      rcases List.mem_append.mp hf with hf | hf
      · -- the elements do not touch the scalars
        rw [load_getAll_of_disjoint]
        · exact hload f (hwire hf)
        · intro g hg
          obtain ⟨i, _, rfl⟩ := List.mem_map.mp hg
          exact field_disjoint_elem ha hf i
      · refine load_getAll (by simpa using a.elems_disjoint _) _ ?_ (by simpa using hf)
        rw [getAll_pos]
        exact hrest

end RazorHeader

end Razor
