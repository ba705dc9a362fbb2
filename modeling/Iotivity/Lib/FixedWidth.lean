import Iotivity.Lib.Numeral

/-!
# Numbers of a fixed width

Decimal numbers with leading zeros.  As texts they are in the order of the numbers, and so are texts
that are put together from fields of the same widths.

* `lt_append_iff`   the first field that differs decides;
* `fixed_lt_iff`    a field is in the order of its numbers.
-/

namespace Numeral

/-- the last `k` digits of a number -/
def fixed : Nat → Nat → List UInt8
  | 0, _ => []
  | k + 1, v => fixed k (v / 10) ++ [digit (v % 10)]

theorem fixed_length (k v : Nat) : (fixed k v).length = k := by
  induction k generalizing v with
  | zero => rfl
  | succ k ih => rw [fixed, List.length_append, ih]; rfl

theorem lt_append_iff {l l' s s' : List UInt8} (h : l.length = l'.length) :
    l ++ s < l' ++ s' ↔ l < l' ∨ l = l' ∧ s < s' := by
  induction l generalizing l' with
  | nil =>
    cases List.eq_nil_of_length_eq_zero h.symm
    exact ⟨fun h => Or.inr ⟨rfl, h⟩, fun h => h.elim (fun hc => absurd hc (List.not_lt_nil [])) And.right⟩
  | cons c l ih =>
    cases l' with
    | nil => cases h
    | cons c' l' =>
      rw [List.cons_append, List.cons_append, List.cons_lt_cons_iff, List.cons_lt_cons_iff,
        ih (Nat.succ.inj h), List.cons.injEq]
      constructor
      · rintro (hc | ⟨hc, hl | ⟨hl, hs⟩⟩)
        · exact Or.inl (Or.inl hc)
        · exact Or.inl (Or.inr ⟨hc, hl⟩)
        · exact Or.inr ⟨⟨hc, hl⟩, hs⟩
      · rintro ((hc | ⟨hc, hl⟩) | ⟨⟨hc, hl⟩, hs⟩)
        · exact Or.inl hc
        · exact Or.inr ⟨hc, Or.inl hl⟩
        · exact Or.inr ⟨hc, Or.inr ⟨hl, hs⟩⟩

theorem digit_lt_iff {d e : Nat} (hd : d < 10) (he : e < 10) : digit d < digit e ↔ d < e := by
  rw [UInt8.lt_iff_toNat_lt, digit_toNat hd, digit_toNat he]
  omega

theorem fixed_inj {k n m : Nat} (hn : n < 10 ^ k) (hm : m < 10 ^ k) (h : fixed k n = fixed k m) :
    n = m := by
  induction k generalizing n m with
  | zero => omega
  | succ k ih =>
    obtain ⟨h1, h2⟩ := List.append_inj' h rfl
    have hd := congrArg UInt8.toNat (List.cons.inj h2).1
    rw [digit_toNat (Nat.mod_lt _ (by decide)), digit_toNat (Nat.mod_lt _ (by decide))] at hd
    have := ih (Nat.div_lt_of_lt_mul (by rwa [Nat.mul_comm, ← Nat.pow_succ]))
      (Nat.div_lt_of_lt_mul (by rwa [Nat.mul_comm, ← Nat.pow_succ])) h1
    omega

theorem fixed_lt_iff {k n m : Nat} (hn : n < 10 ^ k) (hm : m < 10 ^ k) :
    fixed k n < fixed k m ↔ n < m := by
  induction k generalizing n m with
  | zero =>
    rw [Nat.pow_zero] at hn hm
    exact ⟨fun h => absurd h (List.not_lt_nil []), fun h => by omega⟩
  | succ k ih =>
    have hn' : n / 10 < 10 ^ k := Nat.div_lt_of_lt_mul (by rwa [Nat.mul_comm, ← Nat.pow_succ])
    have hm' : m / 10 < 10 ^ k := Nat.div_lt_of_lt_mul (by rwa [Nat.mul_comm, ← Nat.pow_succ])
    have hdig : [digit (n % 10)] < [digit (m % 10)] ↔ n % 10 < m % 10 := by
      rw [List.cons_lt_cons_iff, digit_lt_iff (Nat.mod_lt _ (by decide)) (Nat.mod_lt _ (by decide))]
      exact or_iff_left fun hc => List.not_lt_nil [] hc.2
    rw [fixed, fixed, lt_append_iff (by rw [fixed_length, fixed_length]), ih hn' hm', hdig]
    constructor
    · rintro (h | ⟨h, hd⟩)
      · omega
      · have := fixed_inj hn' hm' h
        omega
    · intro h
      by_cases hc : n / 10 < m / 10
      · exact Or.inl hc
      · have he : n / 10 = m / 10 := by omega
        exact Or.inr ⟨by rw [he], by omega⟩

/-- fields of one width, and what follows them -/
theorem fixed_append_lt_iff {k n m : Nat} (hn : n < 10 ^ k) (hm : m < 10 ^ k) {s s' : List UInt8} :
    fixed k n ++ s < fixed k m ++ s' ↔ n < m ∨ n = m ∧ s < s' := by
  rw [lt_append_iff (by rw [fixed_length, fixed_length]), fixed_lt_iff hn hm]
  refine or_congr Iff.rfl (and_congr ⟨fixed_inj hn hm, fun h => by rw [h]⟩ Iff.rfl)

end Numeral
