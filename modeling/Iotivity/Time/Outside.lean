import Iotivity.Time.RoundTrip

/-!
# What `timestamp_parse` reads outside its text

The offset is read without a test that its five bytes are there.

* `parse_outside_iff`   the texts that end in the middle of an offset are the ones for which bytes
                        behind the text are read.
-/

namespace Time

/-! ## readings that stay inside -/

/-- no byte outside is read -/
def Inside {α : Type} (x : Reading α) : Prop := x ≠ .error .outside

section
variable {α β : Type} {x : Reading α} {f : α → Reading β} {str : Bytes} {i : Nat}

theorem Inside.bind (hx : Inside x) (hf : ∀ a, x = .ok a → Inside (f a)) : Inside (x >>= f) := by
  cases x with
  | error e => exact fun h => hx (by cases h; rfl)
  | ok a => exact hf a rfl

theorem inside_need (p : Bool) : Inside (need p) := by
  cases p
  · exact fun h => nomatch h
  · exact fun h => nomatch h

theorem inside_pure (a : α) : Inside (pure a : Reading α) := fun h => nomatch h

theorem inside_byte (h : i < str.length) : Inside (byte str i) := by
  unfold byte
  rw [List.getElem?_eq_getElem h]
  exact fun h => nomatch h

theorem inside_digitAt (h : i < str.length) : Inside (digitAt str i) :=
  (inside_byte h).bind fun _ _ => (inside_need _).bind fun _ _ => inside_pure _

theorem inside_parse2d (h : i + 1 < str.length) : Inside (parse2d str i) :=
  (inside_digitAt (Nat.lt_of_succ_lt h)).bind fun _ _ => (inside_digitAt h).bind fun _ _ => inside_pure _

theorem inside_parse4d (h : i + 3 < str.length) : Inside (parse4d str i) :=
  (inside_digitAt (by omega)).bind fun _ _ => (inside_digitAt (by omega)).bind fun _ _ =>
    (inside_digitAt (by omega)).bind fun _ _ => (inside_digitAt h).bind fun _ _ => inside_pure _

theorem inside_within {lo hi : Nat} {r : Reading Nat} (h : Inside r) : Inside (within lo hi r) :=
  h.bind fun _ _ => (inside_need _).bind fun _ _ => inside_pure _

theorem inside_parseHead (h : 19 ≤ str.length) : Inside (parseHead str) := by
  have tested : ∀ {i : Nat} {p : UInt8 → Bool} {γ : Type} {k : Reading γ}, i < 19 → Inside k →
      Inside (do need (p (← byte str i)); k) := fun hi hk =>
    (inside_byte (by omega)).bind fun _ _ => (inside_need _).bind fun _ _ => hk
  have two : ∀ {i lo hi : Nat}, i + 1 < 19 → Inside (within lo hi (parse2d str i)) := fun hi =>
    inside_within (inside_parse2d (by omega))
  refine tested (by decide) (tested (by decide) (tested (by decide) (tested (by decide) ?_)))
  refine (inside_byte (by omega)).bind fun _ _ => (inside_need _).bind fun _ _ =>
    (inside_parse4d (by omega)).bind fun _ _ => (inside_need _).bind fun _ _ => ?_
  exact (two (by decide)).bind fun _ _ => (two (by decide)).bind fun _ _ => (two (by decide)).bind fun _ _ =>
    (two (by decide)).bind fun _ _ => (two (by decide)).bind fun _ _ => (inside_need _).bind fun _ _ =>
    inside_pure _

theorem inside_parseFraction {fin : Nat} (h20 : 20 ≤ fin) (hf : fin ≤ str.length) :
    Inside (parseFraction str fin) := by
  refine (inside_byte (by omega)).bind fun ch _ => ?_
  split
  · have hl : (rest str fin 20).length = fin - 20 := rest_length hf
    have hk := digitsLoop_eq hf (fin - 20) 0 (show 20 + (fin - 20) = fin by omega) (by decide)
    rw [hk]
    refine (inside_need _).bind fun _ _ => ?_
    have hle := (List.takeWhile_sublist Numeral.isDigit (l := rest str fin 20)).length_le
    generalize (rest str fin 20).takeWhile Numeral.isDigit = ds at *
    by_cases hc : 20 + ds.length = fin
    · rw [show decide (20 + ds.length ≠ fin) = false from decide_eq_false (not_not.mpr hc)]
      exact fun h => nomatch h
    · refine (inside_need _).bind fun _ _ => ?_
      exact (inside_byte (by omega)).bind fun _ _ => inside_pure _
  · exact inside_pure _

end

/-! ## the offset -/

/-- what is left of an offset behind its sign, when bytes behind it are read -/
def Short (r : Bytes) : Prop :=
  r.length < 3 ∨ (∃ hour ≤ 23, r.take 3 = twoDigits hour ++ [58]) ∧
    (r.length = 3 ∨ r.length = 4 ∧ ∃ c, r[3]? = some c ∧ Numeral.isDigit c = true)

section
variable {α β : Type} {x : Reading α} {f : α → Reading β} {str : Bytes} {i : Nat}

theorem bind_outside : x >>= f = .error .outside ↔
    x = .error .outside ∨ ∃ a, x = .ok a ∧ f a = .error .outside := by
  cases x with
  | error e =>
    constructor
    · intro h
      cases h
      exact Or.inl rfl
    · rintro (h | ⟨_, h, -⟩)
      · cases h
        rfl
      · cases h
  | ok a =>
    constructor
    · exact fun h => Or.inr ⟨a, rfl, h⟩
    · rintro (h | ⟨_, h, hf⟩)
      · cases h
      · cases h
        exact hf

theorem byte_outside : byte str i = .error .outside ↔ str.length ≤ i := by
  unfold byte
  cases h : str[i]? with
  | none => exact ⟨fun _ => List.getElem?_eq_none_iff.mp h, fun _ => rfl⟩
  | some c =>
    have hlt := (List.getElem?_eq_some_iff.mp h).1
    exact ⟨fun h => (nomatch h), fun hc => absurd hlt (Nat.not_lt.mpr hc)⟩

theorem digitAt_outside : digitAt str i = .error .outside ↔ str.length ≤ i := by
  constructor
  · intro h
    by_contra hc
    exact inside_digitAt (Nat.lt_of_not_le hc) h
  · intro h
    unfold digitAt
    rw [byte_outside.mpr h]
    rfl

theorem parse2d_outside : parse2d str i = .error .outside ↔
    str.length ≤ i ∨ (∃ c, str[i]? = some c ∧ Numeral.isDigit c = true) ∧ str.length ≤ i + 1 := by
  unfold parse2d
  rw [bind_outside, digitAt_outside]
  refine or_congr Iff.rfl ?_
  constructor
  · rintro ⟨d, hd, h⟩
    obtain ⟨h10, hs⟩ := digitAt_ok.mp hd
    rcases bind_outside.mp h with h | ⟨a, -, h⟩
    · exact ⟨⟨_, hs, Numeral.isDigit_digit h10⟩, digitAt_outside.mp h⟩
    · cases h
  · rintro ⟨⟨c, hs, hd⟩, h⟩
    obtain ⟨hlt, he⟩ := digit_of_sub (isDigit_sub.mp hd)
    exact ⟨(c - 48).toNat, digitAt_ok.mpr ⟨hlt, he ▸ hs⟩, bind_outside.mpr (Or.inl (digitAt_outside.mpr h))⟩

theorem need_outside {p : Bool} : need p = .error .outside ↔ False := ⟨inside_need p, False.elim⟩

theorem pure_outside {a : α} : (pure a : Reading α) = .error .outside ↔ False :=
  ⟨inside_pure a, False.elim⟩

theorem within_outside {lo hi : Nat} {r : Reading Nat} :
    within lo hi r = .error .outside ↔ r = .error .outside := by
  unfold within
  simp only [bind_outside, need_outside, pure_outside, and_false, exists_false, or_false]

theorem parseOffset_outside {cur : Nat} {ch : UInt8} (hle : cur ≤ str.length) :
    parseOffset str str.length cur ch = .error .outside ↔ (ch = 43 ∨ ch = 45) ∧ Short (str.drop cur) := by
  unfold parseOffset
  by_cases hz : ch = 90 ∨ ch = 122
  · rw [if_pos hz]
    simp only [bind_outside, need_outside, pure_outside, and_false, exists_false, or_false, false_iff]
    rintro ⟨hs, -⟩
    rcases hz with rfl | rfl <;> exact absurd hs (by decide)
  · rw [if_neg hz]
    simp only [bind_outside, byte_outside, need_outside, pure_outside, within_outside, parse2d_outside,
      need_ok, byte_ok, within_ok, parse2d_ok, decide_eq_true_eq, and_false, exists_false, or_false, false_or]
    have hlen : (str.drop cur).length = str.length - cur := List.length_drop
    have hthree : ∀ hour, (str.drop cur).take 3 = twoDigits hour ++ [58] ↔
        str[cur]? = some (Numeral.digit (hour / 10)) ∧ str[cur + 1]? = some (Numeral.digit (hour % 10)) ∧
          str[cur + 2]? = some 58 := by
      intro hour
      have h3 : (twoDigits hour ++ [58]).length = 3 := rfl
      rw [← h3, take_eq_iff, h3]
      simp only [List.getElem?_drop]
      constructor
      · exact fun h => ⟨h 0 (by decide), h 1 (by decide), h 2 (by decide)⟩
      · rintro ⟨h0, h1, h2⟩ i hi
        interval_cases i
        exacts [h0, h1, h2]
    unfold Short
    rw [hlen]
    simp only [hthree, List.getElem?_drop]
    constructor
    · rintro ⟨-, h5, -, hs, h2 | ⟨_, hc, -, rfl, (h0 | ⟨-, h1⟩) | ⟨hour, ⟨⟨-, d0, d1⟩, -, h23⟩, h3⟩⟩⟩
      · exact ⟨hs, Or.inl (by omega)⟩
      · exact ⟨hs, Or.inl (by omega)⟩
      · exact ⟨hs, Or.inl (by omega)⟩
      · have hlt := (List.getElem?_eq_some_iff.mp hc).1
        refine ⟨hs, Or.inr ⟨⟨hour, h23, d0, d1, hc⟩, ?_⟩⟩
        rcases h3 with h3 | ⟨⟨c, hc3, hd⟩, h4⟩
        · exact Or.inl (by omega)
        · have hlt3 := (List.getElem?_eq_some_iff.mp hc3).1
          exact Or.inr ⟨by omega, c, hc3, hd⟩
    · rintro ⟨hs, h3 | ⟨⟨hour, h23, d0, d1, hc⟩, h3⟩⟩
      · exact ⟨(), by omega, (), hs, Or.inl (by omega)⟩
      · refine ⟨(), by omega, (), hs, Or.inr ⟨58, hc, (), rfl, Or.inr ⟨hour, ⟨⟨by omega, d0, d1⟩, Nat.zero_le _, h23⟩, ?_⟩⟩⟩
        rcases h3 with h3 | ⟨h4, c, hc3, hd⟩
        · exact Or.inl (by omega)
        · exact Or.inr ⟨⟨c, hc3, hd⟩, by omega⟩

end

/-! ## texts -/

theorem parse_outside_iff (str : Bytes) : timestampParse str str.length = .error .outside ↔
    ∃ (m : Moment) (frac : Bytes) (c : UInt8) (r : Bytes), m.Valid ∧ frac.length ≤ 9 ∧
      (∀ x ∈ frac, Numeral.isDigit x = true) ∧ (c = 43 ∨ c = 45) ∧
      str = m.text ++ Stamp.fracText frac ++ c :: r ∧ Short r := by
  have hdrop : ∀ cur, rest str str.length cur = str.drop cur := fun cur => by
    unfold rest
    rw [List.take_length]
  unfold timestampParse
  simp only [bind_outside, need_outside, pure_outside, need_ok, decide_eq_true_eq, and_false, exists_false,
    or_false, false_or, Prod.exists]
  constructor
  · rintro ⟨-, h20, hh | ⟨rdn, sod, hh, hf | ⟨cur, nsec, ch, hf, ho⟩⟩⟩
    · exact absurd hh (inside_parseHead (by omega))
    · exact absurd hf (inside_parseFraction h20 (le_refl _))
    · obtain ⟨m, hm, ht, -, -⟩ := parseHead_ok.mp hh
      obtain ⟨frac, h9, hd, -, hle, hrest, -⟩ := (parseFraction_ok h20 (le_refl _)).mp hf
      obtain ⟨hs, hshort⟩ := (parseOffset_outside hle).mp ho
      refine ⟨m, frac, ch, str.drop cur, hm, h9, hd, hs, ?_, hshort⟩
      rw [List.append_assoc, ← ht, ← hdrop, ← hrest, hdrop, List.take_append_drop]
  · rintro ⟨m, frac, c, r, hm, h9, hd, hs, hstr, hshort⟩
    have hc : c ≠ 46 ∧ Numeral.isDigit c = false := by
      rcases hs with rfl | rfl
      · exact ⟨by decide, by decide⟩
      · exact ⟨by decide, by decide⟩
    have ht : str.take str.length = m.text ++ (Stamp.fracText frac ++ c :: r) := by
      rw [List.take_length, hstr, List.append_assoc]
    obtain ⟨cur, h20, hle, hh, hf, hr⟩ := read_before (le_refl _) hm h9 hd hc.1 hc.2 ht
    rw [hdrop] at hr
    exact ⟨(), h20, Or.inr ⟨_, _, hh, Or.inr ⟨_, _, _, hf, (parseOffset_outside hle).mpr ⟨hs, hr ▸ hshort⟩⟩⟩⟩

end Time
