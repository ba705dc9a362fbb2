import Iotivity.Coap.Emitted
import Iotivity.Coap.Decoded

/-!
# Option values there and back

* `coapParseIntOption_intBytes`   integers written with leading zeros dropped;
* `parseBlockOption_blockValue`   Block options;
* `listOptions_append`            options are handled one after the other.
-/

set_option linter.unusedVariables false

namespace Coap
open Memory DeltaCode

/-! ## integers -/

/-- a mask of the bits from `k` up sees the numbers from `2^k` up -/
theorem and_mask_eq_zero_iff (j k v : Nat) (hv : v < 2^(j + k)) :
    ((2^j - 1) <<< k) &&& v = 0 ↔ v < 2^k := by
  have hshift : (((2^j - 1) <<< k) &&& v) >>> k = v / 2^k := by
    rw [Nat.shiftRight_and_distrib, Nat.shiftLeft_shiftRight, Nat.shiftRight_eq_div_pow, Nat.and_comm,
      Nat.and_two_pow_sub_one_eq_mod]
    apply Nat.mod_eq_of_lt
    rw [Nat.div_lt_iff_lt_mul (Nat.two_pow_pos k), ← Nat.pow_add]
    exact hv
  constructor
  · intro h
    rw [h, Nat.zero_shiftRight] at hshift
    exact (Nat.div_eq_zero_iff_lt (Nat.two_pow_pos k)).mp hshift.symm
  · intro h
    have h1 : (((2^j - 1) <<< k) &&& v) % 2^k = 0 := by
      rw [Nat.and_mod_two_pow, Nat.shiftLeft_eq, Nat.mul_mod_left, Nat.zero_and]
    have h2 : ((2^j - 1) <<< k) &&& v < 2^k := Nat.lt_of_le_of_lt Nat.and_le_right h
    rwa [Nat.mod_eq_of_lt h2] at h1

theorem mask_ne_zero (j k : Nat) (v mask : UInt32) (hjk : j + k = 32)
    (hm : mask.toNat = (2^j - 1) <<< k) : (mask &&& v != 0) = decide (2^k ≤ v.toNat) := by
  have hv : v.toNat < 2^(j + k) := by
    rw [hjk]
    exact v.toNat_lt
  have h := and_mask_eq_zero_iff j k v.toNat hv
  have h0 : mask &&& v = 0 ↔ v.toNat < 2^k := by
    rw [← h, ← hm, ← UInt32.toNat_and, ← UInt32.toNat_inj]
    rfl
  by_cases hlt : v.toNat < 2^k
  · rw [h0.mpr hlt]
    simp [hlt]
  · have hne : mask &&& v ≠ 0 := fun hc => hlt (h0.mp hc)
    rw [decide_eq_true (by omega : 2^k ≤ v.toNat)]
    exact bne_iff_ne.mpr hne

theorem intBytes_eq (v : UInt32) : intBytes v =
    if v.toNat < 1 then []
    else if v.toNat < 2^8 then [v.toUInt8]
    else if v.toNat < 2^16 then [(v >>> 8).toUInt8, v.toUInt8]
    else if v.toNat < 2^24 then [(v >>> 16).toUInt8, (v >>> 8).toUInt8, v.toUInt8]
    else [(v >>> 24).toUInt8, (v >>> 16).toUInt8, (v >>> 8).toUInt8, v.toUInt8] := by
  have h0 := mask_ne_zero 32 0 v 0xFFFFFFFF rfl rfl
  have h1 := mask_ne_zero 24 8 v 0xFFFFFF00 rfl rfl
  have h2 := mask_ne_zero 16 16 v 0xFFFF0000 rfl rfl
  have h3 := mask_ne_zero 8 24 v 0xFF000000 rfl rfl
  have hz : (v >>> 0) = v := by
    apply UInt32.toNat_inj.mp
    simp
  unfold intBytes intOptionBytes
  simp only [List.filter_cons, List.filter_nil, h0, h1, h2, h3, decide_eq_true_eq]
  -- a byte is written if the value is large enough for it, and then the lower ones are
  by_cases c0 : v.toNat < 1
  · rw [if_pos c0, if_neg (by omega), if_neg (by omega), if_neg (by omega), if_neg (by omega)]
    rfl
  rw [if_neg c0]
  by_cases c1 : v.toNat < 2^8
  · rw [if_pos c1, if_neg (by omega), if_neg (by omega), if_neg (by omega), if_pos (by omega)]
    exact congrArg (fun x : UInt32 => [x.toUInt8]) hz
  rw [if_neg c1]
  by_cases c2 : v.toNat < 2^16
  · rw [if_pos c2, if_neg (by omega), if_neg (by omega), if_pos (by omega), if_pos (by omega)]
    exact congrArg (fun x : UInt32 => [(v >>> 8).toUInt8, x.toUInt8]) hz
  rw [if_neg c2]
  by_cases c3 : v.toNat < 2^24
  · rw [if_pos c3, if_neg (by omega), if_pos (by omega), if_pos (by omega), if_pos (by omega)]
    exact congrArg (fun x : UInt32 => [(v >>> 16).toUInt8, (v >>> 8).toUInt8, x.toUInt8]) hz
  · rw [if_neg c3, if_pos (by omega), if_pos (by omega), if_pos (by omega), if_pos (by omega)]
    exact congrArg (fun x : UInt32 => [(v >>> 24).toUInt8, (v >>> 16).toUInt8, (v >>> 8).toUInt8,
      x.toUInt8]) hz

/-- one more byte -/
theorem toNat_shift_or (a : UInt32) (b : UInt8) :
    (a <<< 8 ||| b.toUInt32).toNat = a.toNat % 2^24 * 256 + b.toNat := by
  have hb := b.toNat_lt
  have e1 : (a <<< 8).toNat = (a.toNat % 2^24) <<< 8 := by
    rw [UInt32.toNat_shiftLeft]
    show a.toNat <<< 8 % 2^32 = _
    rw [Nat.shiftLeft_eq, Nat.shiftLeft_eq]
    omega
  rw [UInt32.toNat_or, e1, UInt8.toNat_toUInt32, ← Nat.shiftLeft_add_eq_or_of_lt
    (show b.toNat < 2^8 from hb), Nat.shiftLeft_eq]

theorem toNat_byte (v : UInt32) (k : UInt32) (hk : k.toNat < 32) :
    (v >>> k).toUInt8.toNat = v.toNat / 2^k.toNat % 256 := by
  rw [UInt32.toNat_toUInt8, UInt32.toNat_shiftRight, Nat.mod_eq_of_lt hk,
    Nat.shiftRight_eq_div_pow]

theorem coapParseIntOption_intBytes (v : UInt32) : coapParseIntOption (intBytes v) = v := by
  have hv := v.toNat_lt
  have b3 := toNat_byte v 24 (by decide)
  have b2 := toNat_byte v 16 (by decide)
  have b1 := toNat_byte v 8 (by decide)
  have b0 : v.toUInt8.toNat = v.toNat % 256 := UInt32.toNat_toUInt8 v
  simp only [UInt32.reduceToNat] at b1 b2 b3
  apply UInt32.toNat_inj.mp
  rw [intBytes_eq]
  unfold coapParseIntOption
  split_ifs <;>
    simp only [List.foldl_cons, List.foldl_nil, toNat_shift_or, b0, b1, b2, b3, UInt32.toNat_zero] <;>
    omega

/-! ## Block options -/

theorem coapLog2Loop_eq (fuel : Nat) : ∀ value result, value < 2^(fuel + 1) →
    coapLog2Loop (fuel + 1) value result = result + Nat.log2 value + 1 := by
  induction fuel with
  | zero =>
    intro value result h
    have h2 : value / 2 = 0 := by omega
    unfold coapLog2Loop
    rw [if_neg (by omega), Nat.log2_def, if_neg (by omega)]
  | succ fuel ih =>
    intro value result h
    unfold coapLog2Loop
    rw [Nat.log2_def]
    by_cases h2 : value / 2 ≠ 0
    · rw [if_pos h2, ih _ _ (by omega), if_pos (by omega)]
      omega
    · rw [if_neg h2, if_neg (by omega)]

theorem coapLog2_eq (value : Nat) (h : value < 2^16) : coapLog2 value = Nat.log2 value := by
  unfold coapLog2
  rw [coapLog2Loop_eq 15 value 0 h]
  omega

/-- the size exponent that a Block option carries for a size -/
def szx (size : Nat) : Nat := Nat.log2 (size / 16)

theorem szx_lt (size : Nat) (h : size ≤ 2048) : szx size < 8 := by
  unfold szx
  by_cases h0 : size / 16 = 0
  · rw [h0]
    decide
  · exact (Nat.log2_lt h0).mpr (by omega)

theorem toNat_blockValue (b : BlockOption) (hn : b.num.toNat < 2^28) (hs : b.size.toNat ≤ 2048) :
    (blockValue b).toNat
      = b.num.toNat * 16 + (if b.more ≠ 0 then 8 else 0) + szx b.size.toNat := by
  have hlt := szx_lt b.size.toNat hs
  have hlog : coapLog2 (b.size.toNat / 16) = szx b.size.toNat :=
    coapLog2_eq _ (by omega)
  have he : (UInt32.ofNat (0xF &&& coapLog2 (b.size.toNat / 16))).toNat = szx b.size.toNat := by
    rw [hlog, Nat.and_comm, Nat.and_two_pow_sub_one_eq_mod _ 4, UInt32.toNat_ofNat']
    omega
  have hnum : (b.num <<< 4).toNat = b.num.toNat <<< 4 := by
    rw [UInt32.toNat_shiftLeft]
    show b.num.toNat <<< 4 % 2^32 = _
    rw [Nat.shiftLeft_eq]
    omega
  have hmore : (if b.more ≠ 0 then (0x8 : UInt32) else 0).toNat = if b.more ≠ 0 then 8 else 0 := by
    split_ifs <;> rfl
  have hlow : (if b.more ≠ 0 then 8 else 0) ||| szx b.size.toNat
      = (if b.more ≠ 0 then 8 else 0) + szx b.size.toNat := by
    split_ifs
    · exact (Nat.two_pow_add_eq_or_of_lt (i := 3) hlt 1).symm
    · rw [Nat.zero_or, Nat.zero_add]
  unfold blockValue
  rw [UInt32.toNat_or, UInt32.toNat_or, he, hnum, hmore, Nat.or_assoc, hlow,
    ← Nat.shiftLeft_add_eq_or_of_lt (i := 4) (by split_ifs <;> omega), Nat.shiftLeft_eq]
  omega

theorem and_low (x c : Nat) (hc : c < 16) : x &&& c = (x % 16) &&& c := by
  have h1 : (x &&& c) % 2^4 = (x % 2^4) &&& (c % 2^4) := Nat.and_mod_two_pow
  have h2 : x &&& c < 2^4 := Nat.lt_of_le_of_lt Nat.and_le_right hc
  rw [Nat.mod_eq_of_lt h2, Nat.mod_eq_of_lt (show c < 2^4 from hc)] at h1
  exact h1

/-- the bit fields of a Block option value -/
theorem parseBlockOption_eq (v : UInt32) (n t e : Nat) (ht : t ≤ 1) (he : e < 8)
    (hv : v.toNat = n * 16 + 8 * t + e) :
    (parseBlockOption v).num.toNat = n ∧ (parseBlockOption v).more.toNat = t
      ∧ (parseBlockOption v).size.toNat = 16 * 2^e
      ∧ (parseBlockOption v).offset.toNat = n * (16 * 2^e) % 2^32 := by
  have hlow : v.toNat % 16 = 8 * t + e := by omega
  have h8 : (v &&& 8).toNat = 8 * t := by
    rw [UInt32.toNat_and]
    show v.toNat &&& 8 = _
    rw [and_low _ _ (by decide), hlow]
    interval_cases t <;> interval_cases e <;> rfl
  have h7 : (v &&& 7).toNat = e := by
    rw [UInt32.toNat_and]
    show v.toNat &&& 7 = _
    rw [Nat.and_two_pow_sub_one_eq_mod _ 3]
    omega
  have hF : (v &&& ~~~(0xF : UInt32)).toNat = n * 16 := by
    have h1 : (v &&& ~~~(0xF : UInt32)).toNat = v.toNat &&& ((2^28 - 1) <<< 4) := by
      rw [UInt32.toNat_and]
      rfl
    have h2 : (v.toNat &&& ((2^28 - 1) <<< 4)) % 2^4 = 0 := by
      rw [Nat.and_mod_two_pow, Nat.shiftLeft_eq, Nat.mul_mod_left, Nat.and_zero]
    have h3 : (v.toNat &&& ((2^28 - 1) <<< 4)) / 2^4 = v.toNat / 2^4 := by
      rw [← Nat.shiftRight_eq_div_pow, Nat.shiftRight_and_distrib, Nat.shiftLeft_shiftRight,
        Nat.and_two_pow_sub_one_eq_mod, Nat.shiftRight_eq_div_pow]
      have := v.toNat_lt
      omega
    rw [h1]
    omega
  have hlt := v.toNat_lt
  refine ⟨?_, ?_, ?_, ?_⟩
  · show (v >>> 4).toNat = n
    rw [UInt32.toNat_shiftRight]
    show v.toNat >>> 4 = n
    rw [Nat.shiftRight_eq_div_pow]
    omega
  · show ((v &&& 8) >>> 3).toUInt8.toNat = t
    rw [UInt32.toNat_toUInt8, UInt32.toNat_shiftRight, h8]
    interval_cases t <;> rfl
  · show (16 <<< (v &&& 7).toUInt16 : UInt16).toNat = 16 * 2^e
    rw [UInt16.toNat_shiftLeft, UInt32.toNat_toUInt16, h7]
    interval_cases e <;> rfl
  · show ((v &&& ~~~0xF) <<< (v &&& 7)).toNat = n * (16 * 2^e) % 2^32
    rw [UInt32.toNat_shiftLeft, h7, hF, Nat.mod_eq_of_lt (show e < 32 by omega), Nat.shiftLeft_eq,
      Nat.mul_assoc]

end Coap
