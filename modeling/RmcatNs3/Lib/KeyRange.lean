import RmcatNs3.Lib.CountedLoop
import RmcatNs3.Lib.SortedMap

/-!
# Ranges of keys

Loops over a machine counter that bind or remove the keys of a range in a sorted map, and
keys that are sent as an offset from a base, in fewer bits than they have.
-/

namespace KeyRange

open CountedLoop

variable {w : Nat} {V : Type} {m m' : SortedMap Nat V} {i j b : BitVec w}

/-- **A loop that binds** the keys from `i` on, below `b`: those that had no binding have this
one. -/
theorem mem_forLoop_insert {v : V}
    (h : forLoop (fun key _ => decide (key < b))
      (fun key (m : SortedMap Nat V) => m.insert key.toNat v) i m = some (j, m'))
    (c : Nat × V) :
    c ∈ m' ↔ c ∈ m ∨ m.find? c.1 = none ∧ i.toNat ≤ c.1 ∧ c.1 < b.toNat ∧ c.2 = v := by
  have hinv := loop_invariant
    (I := fun key (m₁ : SortedMap Nat V) => i.toNat ≤ key.toNat ∧
      (key.toNat = i.toNat ∨ key.toNat ≤ b.toNat) ∧
      ∀ c, c ∈ m₁ ↔ c ∈ m ∨
        m.find? c.1 = none ∧ i.toNat ≤ c.1 ∧ c.1 < key.toNat ∧ c.2 = v)
    ⟨Nat.le_refl _, .inl rfl, fun c => ?_⟩ ?_ h
  · obtain ⟨⟨hle, hstart, hmem⟩, hend⟩ := hinv
    have hnot : ¬ j.toNat < b.toNat := by simpa [BitVec.lt_def] using hend
    rw [hmem c]
    refine or_congr_right (and_congr_right fun _ => ?_)
    constructor
    · rintro ⟨hlow, hhigh, hv⟩
      exact ⟨hlow, by omega, hv⟩
    · rintro ⟨hlow, hhigh, hv⟩
      exact ⟨hlow, by omega, hv⟩
  · refine (or_iff_left ?_).symm
    rintro ⟨-, hlow, hhigh, -⟩
    omega
  · intro key m₁ ⟨hle, hstart, hmem⟩ hmore
    have hlt : key < b := of_decide_eq_true hmore
    have hturn : key.toNat < b.toNat := hlt
    rw [toNat_succ_of_lt hlt]
    refine ⟨by omega, .inr (by omega), fun c => ?_⟩
    rw [SortedMap.mem_insert, hmem c]
    -- the key of this turn has no binding yet unless it had one before the loop
    have hnew : m₁.find? key.toNat = none ↔ m.find? key.toNat = none := by
      rw [SortedMap.find?_eq_none_iff, SortedMap.find?_eq_none_iff]
      constructor
      · exact fun hnone d hd => hnone d ((hmem d).mpr (.inl hd))
      · intro hnone d hd
        rcases (hmem d).mp hd with hd | ⟨-, -, hbelow, -⟩
        · exact hnone d hd
        · omega
    rw [hnew, or_assoc]
    refine or_congr_right ?_
    constructor
    · rintro (⟨hnone, hlow, hhigh, hv⟩ | ⟨hnone, rfl⟩)
      · exact ⟨hnone, hlow, by omega, hv⟩
      · exact ⟨hnone, hle, Nat.lt_succ_self _, rfl⟩
    · rintro ⟨hnone, hlow, hhigh, hv⟩
      by_cases hkey : c.1 = key.toNat
      · exact .inr ⟨hkey ▸ hnone, Prod.ext hkey hv⟩
      · exact .inl ⟨hnone, hlow, by omega, hv⟩

/-- **A loop that removes** the keys from `i` up to `b`. -/
theorem mem_forLoop_erase
    (h : forLoop (fun key _ => decide (key ≤ b))
      (fun key (m : SortedMap Nat V) => m.erase key.toNat) i m = some (j, m'))
    (c : Nat × V) : c ∈ m' ↔ c ∈ m ∧ ¬ (i.toNat ≤ c.1 ∧ c.1 ≤ b.toNat) := by
  have hends : b < i ∨ b ≠ BitVec.allOnes w := forLoop_le_isSome_iff.mp (by rw [h]; rfl)
  have hinv := loop_invariant
    (I := fun key (m₁ : SortedMap Nat V) => i.toNat ≤ key.toNat ∧
      (key.toNat = i.toNat ∨ key.toNat ≤ b.toNat + 1) ∧
      ∀ c, c ∈ m₁ ↔ c ∈ m ∧ ¬ (i.toNat ≤ c.1 ∧ c.1 < key.toNat))
    ⟨Nat.le_refl _, .inl rfl, fun c => ?_⟩ ?_ h
  · obtain ⟨⟨hle, hstart, hmem⟩, hend⟩ := hinv
    rw [decide_eq_true_eq, BitVec.le_def] at hend
    rw [hmem c]
    refine and_congr_right fun _ => not_congr ?_
    omega
  · refine (and_iff_left ?_).symm
    omega
  · intro key m₁ ⟨hle, hstart, hmem⟩ hmore
    have hturn : key.toNat ≤ b.toNat := of_decide_eq_true hmore
    have hb : b ≠ BitVec.allOnes w := by
      refine hends.resolve_left fun hlt => ?_
      have hbelow : b.toNat < i.toNat := hlt
      omega
    have hlt := (le_iff_lt_succ hb).mp (of_decide_eq_true hmore)
    rw [toNat_succ_of_lt hlt]
    refine ⟨by omega, .inr (by omega), fun c => ?_⟩
    rw [SortedMap.mem_erase, hmem c, and_assoc]
    refine and_congr_right fun _ => ?_
    omega

/-! ## Offsets -/

/-- **An offset of `v` bits** leads back to the key exactly if the key is less than `2 ^ v` from
the base. -/
theorem add_offset_eq_iff {v : Nat} (hv : v ≤ w) (base key : BitVec w) :
    base + ((key - base).setWidth v).setWidth w = key ↔ (key - base).toNat < 2 ^ v := by
  have hkey : base + (key - base) = key := by
    rw [BitVec.add_comm, BitVec.sub_add_cancel]
  have hoffset : (((key - base).setWidth v).setWidth w).toNat = (key - base).toNat % 2 ^ v := by
    rw [BitVec.toNat_setWidth, BitVec.toNat_setWidth]
    have hlt : (key - base).toNat % 2 ^ v < 2 ^ v := Nat.mod_lt _ (Nat.two_pow_pos v)
    exact Nat.mod_eq_of_lt (Nat.lt_of_lt_of_le hlt (Nat.pow_le_pow_right (by decide) hv))
  constructor
  · intro h
    have hsame := (BitVec.add_right_inj base).mp (h.trans hkey.symm)
    rw [← congrArg BitVec.toNat hsame, hoffset]
    exact Nat.mod_lt _ (Nat.two_pow_pos v)
  · intro hlt
    have hsame : ((key - base).setWidth v).setWidth w = key - base := by
      apply BitVec.eq_of_toNat_eq
      rw [hoffset, Nat.mod_eq_of_lt hlt]
    rw [hsame, hkey]

end KeyRange
