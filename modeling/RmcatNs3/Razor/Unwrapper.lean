import Mathlib.Order.Basic
import Mathlib.Data.Fintype.Basic
import RmcatNs3.Lib.MachineInt
import RmcatNs3.Lib.Unwrapping

/-!
# Unwrapping sequence numbers

`razor/common/cf_unwrapper.{c,h}`. A counter that never moves by half of the
circle is recovered from its low bits, 16 or 32 of them. The 16-bit functions
subtract in `int`, the 32-bit ones in `uint32_t`.
-/

namespace Razor

open MachineInt

/-- `uint16_t` sequence numbers of the transport. -/
abbrev TransportSeq := Fin (2 ^ 16)

/-- `uint32_t` sequence numbers. -/
abbrev WideSeq := Fin (2 ^ 32)

/-- `cf_unwrapper_t`. Only the assertions read `size`: an unwrapper is used with
the width that it is initialised for. -/
structure Unwrapper where
  lastValue : Int
  deriving DecidableEq, Repr

namespace Unwrapper

/-- `init_unwrapper16`. -/
def init16 : Unwrapper := ⟨0⟩

/-- `wrap16_is_newer`: `0` if it is. -/
def wrap16IsNewer (val prevVal : TransportSeq) : Int :=
  if (val : Int) - prevVal = 0x8000 then if val > prevVal then 0 else -1
  else if val ≠ prevVal ∧ toUnsigned 16 ((val : Int) - prevVal) < 0x8000 then 0
  else -1

/-- `(uint16_t)wrap->last_value`. -/
def croppedLast (wrap : Unwrapper) : TransportSeq :=
  ⟨toUnsigned 16 wrap.lastValue, toUnsigned_lt 16 _⟩

/-- `wrap16_update`. -/
def wrap16Update (wrap : Unwrapper) (val : TransportSeq) : Int :=
  let maxPlus : Int := 0x10000
  let delta : Int := (val : Int) - wrap.croppedLast
  let delta :=
    if wrap16IsNewer val wrap.croppedLast = 0 then
      if delta < 0 then delta + maxPlus else delta
    else if delta > 0 ∧ wrap.lastValue + delta - maxPlus ≥ 0 then delta - maxPlus
    else delta
  wrap.lastValue + delta

/-- `wrap_uint16`; the result is the one it returns. -/
def wrapUint16 (wrap : Unwrapper) (val : TransportSeq) : Int × Unwrapper :=
  let lastValue := wrap.wrap16Update val
  (lastValue, ⟨lastValue⟩)

/-- The low 16 bits of a counter. -/
def low16 (s : Int) : TransportSeq := ⟨toUnsigned 16 s, toUnsigned_lt 16 s⟩

theorem low16_cast (s : Int) : ((low16 s : Nat) : Int) = s % 2 ^ 16 :=
  toUnsigned_cast 16 s

theorem croppedLast_cast (wrap : Unwrapper) :
    ((wrap.croppedLast : Nat) : Int) = wrap.lastValue % 2 ^ 16 :=
  toUnsigned_cast 16 _

variable {wrap : Unwrapper}

/-- What `wrap16_is_newer` asks, in numbers. -/
theorem wrap16IsNewer_eq (val prevVal : TransportSeq) :
    wrap16IsNewer val prevVal = 0 ↔
      (val : Int) - prevVal = 0x8000 ∨
      (val : Int) ≠ prevVal ∧ ((val : Int) - prevVal) % 2 ^ 16 < 0x8000 := by
  have hcast := toUnsigned_cast 16 ((val : Int) - prevVal)
  have hne : val ≠ prevVal ↔ (val : Int) ≠ prevVal := by
    rw [ne_eq, Fin.ext_iff]
    omega
  have hgt : val > prevVal ↔ (val : Int) > prevVal := by
    rw [gt_iff_lt, Fin.lt_def]
    omega
  unfold wrap16IsNewer
  simp only [hne, hgt]
  split_ifs <;> simp <;> omega

/-- An unwrapped number is not negative, and has the low bits that it was made
from. -/
theorem wrap16Update_range (h : 0 ≤ wrap.lastValue) (val : TransportSeq) :
    0 ≤ wrap.wrap16Update val ∧ wrap.wrap16Update val % 2 ^ 16 = val := by
  have hcropped := wrap.croppedLast_cast
  have hval := val.isLt
  unfold wrap16Update
  simp only
  generalize hnewer : wrap16IsNewer val wrap.croppedLast = newer
  split_ifs <;> omega

/-- **Unwrapping recovers a counter** that moved by less than `2 ^ 15`. -/
theorem wrap16Update_low16 {s : Int} (hs : 0 ≤ s)
    (hlow : wrap.lastValue - s < 2 ^ 15) (hhigh : s - wrap.lastValue < 2 ^ 15) :
    wrap.wrap16Update (low16 s) = s := by
  have hcropped := wrap.croppedLast_cast
  have hlow16 := low16_cast s
  have hnewer := wrap16IsNewer_eq (low16 s) wrap.croppedLast
  unfold wrap16Update
  simp only
  split_ifs <;> omega

/-- A counter that moved forward by `2 ^ 15` is recovered if its low bits are not
less than `2 ^ 15`. -/
theorem wrap16Update_antipode {s : Int} (hs : 2 ^ 15 ≤ s % 2 ^ 16)
    (hlast : wrap.lastValue + 2 ^ 15 = s) : wrap.wrap16Update (low16 s) = s := by
  have hcropped := wrap.croppedLast_cast
  have hlow16 := low16_cast s
  have hnewer := wrap16IsNewer_eq (low16 s) wrap.croppedLast
  unfold wrap16Update
  simp only
  split_ifs <;> omega

/-- The first number is taken as it is. -/
theorem wrap16Update_init (val : TransportSeq) :
    init16.wrap16Update val = val := by
  have hcropped := init16.croppedLast_cast
  have hnewer := wrap16IsNewer_eq val init16.croppedLast
  have hval := val.isLt
  unfold wrap16Update
  simp only [init16] at hcropped hnewer ⊢
  split_ifs <;> omega

/-! ## 32 bits -/

/-- `init_unwrapper32`. -/
def init32 : Unwrapper := ⟨0⟩

/-- `wrap32_is_newer`: `0` if it is. -/
def wrap32IsNewer (val prevVal : WideSeq) : Int :=
  if toUnsigned 32 ((val : Int) - prevVal) = 0x80000000 then if val > prevVal then 0 else -1
  else if val ≠ prevVal ∧ toUnsigned 32 ((val : Int) - prevVal) < 0x80000000 then 0
  else -1

/-- `(uint32_t)wrap->last_value`. -/
def croppedLast32 (wrap : Unwrapper) : WideSeq :=
  ⟨toUnsigned 32 wrap.lastValue, toUnsigned_lt 32 _⟩

/-- `wrap32_update`. -/
def wrap32Update (wrap : Unwrapper) (val : WideSeq) : Int :=
  let maxPlus : Int := 0x100000000
  let delta : Int := toUnsigned 32 ((val : Int) - wrap.croppedLast32)
  let delta :=
    if wrap32IsNewer val wrap.croppedLast32 = 0 then
      if delta < 0 then delta + maxPlus else delta
    else if delta > 0 ∧ wrap.lastValue + delta - maxPlus ≥ 0 then delta - maxPlus
    else delta
  wrap.lastValue + delta

/-- `wrap_uint32`; the result is the one it returns. -/
def wrapUint32 (wrap : Unwrapper) (val : WideSeq) : Int × Unwrapper :=
  let lastValue := wrap.wrap32Update val
  (lastValue, ⟨lastValue⟩)

theorem croppedLast32_cast (wrap : Unwrapper) :
    ((wrap.croppedLast32 : Nat) : Int) = wrap.lastValue % 2 ^ 32 :=
  toUnsigned_cast 32 _

/-- What `wrap32_is_newer` asks, in numbers. -/
theorem wrap32IsNewer_eq (val prevVal : WideSeq) :
    wrap32IsNewer val prevVal = 0 ↔
      ((val : Int) - prevVal) % 2 ^ 32 = 0x80000000 ∧ (val : Int) > prevVal ∨
      (val : Int) ≠ prevVal ∧ ((val : Int) - prevVal) % 2 ^ 32 < 0x80000000 := by
  have hcast := toUnsigned_cast 32 ((val : Int) - prevVal)
  have hne : val ≠ prevVal ↔ (val : Int) ≠ prevVal := by
    rw [ne_eq, Fin.ext_iff]
    omega
  have hgt : val > prevVal ↔ (val : Int) > prevVal := by
    rw [gt_iff_lt, Fin.lt_def]
    omega
  unfold wrap32IsNewer
  simp only [hne, hgt]
  split_ifs <;> simp <;> omega

/-! ## Both widths choose the nearest counter -/

/-- The difference is an `int`: a backward step is a negative one. -/
theorem wrap16Update_eq_next (h : 0 ≤ wrap.lastValue) (val : TransportSeq) :
    wrap.wrap16Update val = Unwrapping.next 16 wrap.lastValue (val : Nat) := by
  have hcropped := wrap.croppedLast_cast
  have hnewer := wrap16IsNewer_eq val wrap.croppedLast
  have hval := val.isLt
  unfold wrap16Update Unwrapping.next
  simp only
  split_ifs <;> omega

/-- The difference is a `uint32_t`: it is the forward distance, and a backward
step is made by the guard. -/
theorem wrap32Update_eq_next (wrap : Unwrapper) (val : WideSeq) :
    wrap.wrap32Update val = Unwrapping.next 32 wrap.lastValue (val : Nat) := by
  have hcropped := wrap.croppedLast32_cast
  have hnewer := wrap32IsNewer_eq val wrap.croppedLast32
  have hdelta := toUnsigned_cast 32 ((val : Int) - wrap.croppedLast32)
  have hval := val.isLt
  unfold wrap32Update Unwrapping.next
  simp only
  split_ifs <;> omega

/-- **Unwrapping reconstructs the true counter**, with both widths. -/
theorem unwrappers_obey_law :
    Unwrapping.Law 16 wrapUint16 init16 ∧ Unwrapping.Law 32 wrapUint32 init32 := by
  have h16 : Unwrapping.Chooses 16 wrapUint16 Unwrapper.lastValue :=
    ⟨fun _ val h => wrap16Update_eq_next h val, fun _ _ => rfl⟩
  have h32 : Unwrapping.Chooses 32 wrapUint32 Unwrapper.lastValue :=
    ⟨fun wrap val _ => wrap.wrap32Update_eq_next val, fun _ _ => rfl⟩
  exact ⟨h16.law (by decide) rfl, h32.law (by decide) rfl⟩

end Unwrapper

end Razor
