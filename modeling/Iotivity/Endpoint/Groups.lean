import Iotivity.Endpoint.Bounds

/-!
# The groups of an IPv6 address

A group is two bytes of the address.  `oc_ipv6_endpoint_to_string` prints the groups that are not zero,
each as a `word` of up to four digits, with a colon in front of all but the first.

* `segGroup_word`       a word is read back as its group;
* `shiftTail_eq`        the loop behind the parse opens a gap of zeros in the address;
* `oneGap_iff`          groups whose zeros have no other group between them are the ones in front of a
                        zero, zeros, and the ones behind it.
-/

namespace EndpointString
open Security

abbrev Group := UInt8 × UInt8

/-- the bytes of groups -/
def flat (gs : List Group) : Bytes := gs.flatMap fun g => [g.1, g.2]

/-- the digits of a group that is not zero -/
def word (g : Group) : Bytes := octetText true 0 g.1 ++ octetText false g.1 g.2

/-- each of the groups behind a colon -/
def words (gs : List Group) : Bytes := gs.flatMap fun g => 58 :: word g

theorem flat_append (gs hs : List Group) : flat (gs ++ hs) = flat gs ++ flat hs := List.flatMap_append

theorem length_flat (gs : List Group) : (flat gs).length = 2 * gs.length := by
  induction gs with
  | nil => rfl
  | cons g gs ih =>
    show (flat gs).length + 2 = 2 * (gs.length + 1)
    rw [ih]
    rfl

theorem flat_inj {gs hs : List Group} (h : flat gs = flat hs) : gs = hs := by
  induction gs generalizing hs with
  | nil =>
    cases hs with
    | nil => rfl
    | cons g hs => cases h
  | cons g gs ih =>
    cases hs with
    | nil => cases h
    | cons g' hs =>
      obtain ⟨h1, h⟩ := List.cons.inj h
      obtain ⟨h2, h⟩ := List.cons.inj h
      rw [ih h, show g = g' from Prod.ext h1 h2]

theorem flat_replicate (n : Nat) : flat (List.replicate n (0, 0)) = List.replicate (2 * n) 0 := by
  induction n with
  | zero => rfl
  | succ n ih =>
    show 0 :: 0 :: flat (List.replicate n (0, 0)) = _
    rw [ih]
    rfl

/-- the bytes of an address are those of its groups -/
theorem exists_groups {n : Nat} {addr : Bytes} (h : addr.length = 2 * n) :
    ∃ gs : List Group, gs.length = n ∧ addr = flat gs := by
  induction n generalizing addr with
  | zero => exact ⟨[], rfl, List.eq_nil_of_length_eq_zero h⟩
  | succ n ih =>
    match addr, h with
    | a :: b :: addr, h =>
      obtain ⟨gs, hl, he⟩ := ih (show addr.length = 2 * n by simpa [Nat.mul_succ] using h)
      exact ⟨(a, b) :: gs, congrArg Nat.succ hl, by rw [he]; rfl⟩

theorem getD_flat (gs : List Group) (i : Nat) :
    ((flat gs).getD (2 * i) 0, (flat gs).getD (2 * i + 1) 0) = gs.getD i (0, 0) := by
  induction gs generalizing i with
  | nil => rfl
  | cons g gs ih =>
    cases i with
    | zero => rfl
    | succ i => exact ih i

/-! ## words -/

theorem nibbleOf_hexDigit (c : UInt8) :
    c ≤ 15 → nibbleOf (hexDigit c) = c ∧ hexDigit c ≠ 58 ∧ hexDigit c ≠ 0 := by
  revert c
  exact forall_byte (by decide +kernel)

theorem nibbleOf_hexByte (c : UInt8) :
    (∀ d ∈ hexByte c, d ≠ 58 ∧ d ≠ 0) ∧
      (nibbleOf (hexDigit (c >>> 4)) <<< 4) ||| nibbleOf (hexDigit (c &&& 15)) = c := by
  have hparts : ∀ c : UInt8, c >>> 4 ≤ 15 ∧ c &&& 15 ≤ 15 ∧ c >>> 4 <<< 4 ||| c &&& 15 = c :=
    forall_byte (by decide +kernel)
  obtain ⟨hhi, hlo, hall⟩ := hparts c
  obtain ⟨h1, hd1⟩ := nibbleOf_hexDigit _ hhi
  obtain ⟨h2, hd2⟩ := nibbleOf_hexDigit _ hlo
  refine ⟨List.forall_mem_cons.mpr ⟨hd1, List.forall_mem_singleton.mpr hd2⟩, ?_⟩
  rw [h1, h2]
  exact hall

/-- a word by the size of its bytes -/
theorem word_cases {g : Group} (h : g ≠ (0, 0)) :
    (g.1 = 0 ∧ g.2 ≤ 15 ∧ word g = [hexDigit g.2]) ∨ (g.1 = 0 ∧ word g = hexByte g.2) ∨
      (g.1 ≤ 15 ∧ word g = hexDigit g.1 :: hexByte g.2) ∨ word g = hexByte g.1 ++ hexByte g.2 := by
  obtain ⟨hi, lo⟩ := g
  unfold word octetText
  by_cases hz : hi = 0
  · have hlo : lo ≠ 0 := fun hl => h (by rw [hz, hl])
    by_cases hs : lo ≤ 15
    · exact Or.inl ⟨hz, hs, by simp [hz, hs]⟩
    · exact Or.inr (Or.inl ⟨hz, by simp [hz, hs]⟩)
  · by_cases hs : hi ≤ 15
    · exact Or.inr (Or.inr (Or.inl ⟨hs, by simp [hz, hs]⟩))
    · exact Or.inr (Or.inr (Or.inr (by simp [hz, hs])))

theorem segGroup_word {g : Group} (h : g ≠ (0, 0)) : segGroup (word g) = some g := by
  obtain ⟨hi, lo⟩ := g
  have hb := fun c => (nibbleOf_hexByte c).2
  rcases word_cases h with ⟨hz, hs, hw⟩ | ⟨hz, hw⟩ | ⟨hs, hw⟩ | hw
  · rw [hw, segGroup, (nibbleOf_hexDigit lo hs).1, show hi = 0 from hz]
  · rw [hw, hexByte, segGroup, hb, show hi = 0 from hz]
  · rw [hw, hexByte, segGroup, hb, (nibbleOf_hexDigit hi hs).1]
  · rw [hw, hexByte, hexByte]
    show some (_, _) = _
    rw [hb, hb]

theorem word_text {g : Group} (h : g ≠ (0, 0)) : ∀ d ∈ word g, d ≠ 58 ∧ d ≠ 0 := by
  have hb := fun c => (nibbleOf_hexByte c).1
  have hd := fun c hc => (nibbleOf_hexDigit c hc).2
  rcases word_cases h with ⟨-, hs, hw⟩ | ⟨-, hw⟩ | ⟨hs, hw⟩ | hw
  · rw [hw]
    exact List.forall_mem_singleton.mpr (hd _ hs)
  · rw [hw]
    exact hb _
  · rw [hw]
    exact List.forall_mem_cons.mpr ⟨hd _ hs, hb _⟩
  · rw [hw]
    exact List.forall_mem_append.mpr ⟨hb _, hb _⟩

theorem colon_not_mem_word {g : Group} (h : g ≠ (0, 0)) : 58 ∉ word g := fun hm =>
  (word_text h _ hm).1 rfl

theorem word_ne_nil {g : Group} (h : g ≠ (0, 0)) : word g ≠ [] := by
  intro hw
  have hs := segGroup_word h
  rw [hw] at hs
  cases hs

/-! ## the gap -/

theorem set_length (a b : Bytes) (x y : UInt8) : (a ++ x :: b).set a.length y = a ++ y :: b := by
  rw [List.set_append_right _ _ (Nat.le_refl _), Nat.sub_self]
  rfl

theorem shiftTail_eq (p s r : Bytes) {z : Nat} (hz : 0 < z) :
    shiftTail p.length (p.length + s.length) (p.length + s.length + z - 1)
      (p ++ s ++ List.replicate z 0 ++ r) = .ok (p ++ List.replicate z 0 ++ s ++ r) := by
  obtain ⟨z, rfl⟩ := Nat.exists_eq_succ_of_ne_zero (Nat.pos_iff_ne_zero.mp hz)
  induction s using List.reverseRecOn generalizing r with
  | nil =>
    rw [List.append_nil, List.append_nil, List.length_nil, Nat.add_zero]
    cases hp : p.length with
    | zero => rfl
    | succ k => exact if_neg (by omega)
  | append_singleton s c ih =>
    -- the last byte goes behind the zeros, where a zero is, and leaves one at its place
    have hl : p.length + (s ++ [c]).length = (p.length + s.length) + 1 := by
      rw [List.length_append, List.length_singleton, Nat.add_assoc]
    have hget : (p ++ (s ++ [c]) ++ List.replicate (z + 1) 0 ++ r).getD (p.length + s.length) 0 = c := by
      rw [show p ++ (s ++ [c]) ++ List.replicate (z + 1) 0 ++ r =
        (p ++ s) ++ c :: (List.replicate (z + 1) 0 ++ r) by simp, ← List.length_append]
      simp
    have hset : (p ++ (s ++ [c]) ++ List.replicate (z + 1) 0 ++ r).set (p.length + s.length + z + 1) c =
        (p ++ s) ++ c :: (List.replicate z 0 ++ c :: r) := by
      have hi : p.length + s.length + z + 1 = (p ++ s ++ c :: List.replicate z 0).length := by
        simp [Nat.add_assoc]
      rw [show p ++ (s ++ [c]) ++ List.replicate (z + 1) 0 ++ r =
        (p ++ s ++ c :: List.replicate z 0) ++ 0 :: r by simp [List.replicate_succ'], hi, set_length]
      simp
    have hback : ((p ++ s) ++ c :: (List.replicate z 0 ++ c :: r)).set (p.length + s.length) 0 =
        p ++ s ++ List.replicate (z + 1) 0 ++ c :: r := by
      rw [← List.length_append, set_length]
      simp [List.replicate_succ]
    have hstep : shiftTail p.length (p.length + s.length + 1) (p.length + s.length + z + 1)
        (p ++ (s ++ [c]) ++ List.replicate (z + 1) 0 ++ r) =
        shiftTail p.length (p.length + s.length) (p.length + s.length + z)
          (p ++ s ++ List.replicate (z + 1) 0 ++ c :: r) := by
      rw [shiftTail, if_pos (Nat.le_add_right _ _), hget, store_eq (by simp; omega), hset]
      show (store _ _ 0 >>= _) = _
      rw [store_eq (by simp), hback]
      rfl
    rw [hl, show p.length + s.length + 1 + (z + 1) - 1 = p.length + s.length + z + 1 by omega, hstep]
    have he := ih (c :: r)
    rw [show p.length + s.length + (z + 1) - 1 = p.length + s.length + z by omega] at he
    rw [he]
    simp

/-! ## one gap of zeros -/

/-- no other group is between zero groups -/
def OneGap (gs : List Group) : Prop :=
  ∀ i j k, i < j → j < k → k < gs.length → gs.getD i (0, 0) = (0, 0) → gs.getD k (0, 0) = (0, 0) →
    gs.getD j (0, 0) = (0, 0)

/-- the groups that are printed -/
def printed (gs : List Group) : List Group := gs.filter (· ≠ (0, 0))

theorem printed_ne {gs : List Group} {g : Group} (h : g ∈ printed gs) : g ≠ (0, 0) := by
  simpa using (List.mem_filter.mp h).2

/-- zeros at the end only -/
theorem printed_append_zeros {gs : List Group} (h : gs.Pairwise fun a b => a = (0, 0) → b = (0, 0)) :
    gs = printed gs ++ List.replicate (gs.length - (printed gs).length) (0, 0) := by
  induction gs with
  | nil => rfl
  | cons g gs ih =>
    obtain ⟨hhead, htail⟩ := List.pairwise_cons.mp h
    by_cases hg : g = (0, 0)
    · have hall : ∀ b ∈ gs, b = (0, 0) := fun b hb => hhead b hb hg
      have hp : printed (g :: gs) = [] := List.filter_eq_nil_iff.mpr fun b hb => by
        rcases List.mem_cons.mp hb with rfl | hb
        · simpa using hg
        · simpa using hall b hb
      rw [hp, hg, List.eq_replicate_of_mem hall]
      simp [List.replicate_succ]
    · have hp : printed (g :: gs) = g :: printed gs := List.filter_cons_of_pos (by simpa using hg)
      rw [hp, List.length_cons, List.length_cons, Nat.add_sub_add_right, List.cons_append, ← ih htail]

/-- zeros at the beginning only -/
theorem zeros_append_printed {gs : List Group} (h : gs.Pairwise fun a b => b = (0, 0) → a = (0, 0)) :
    gs = List.replicate (gs.length - (printed gs).length) (0, 0) ++ printed gs := by
  have hr : printed gs.reverse = (printed gs).reverse := List.filter_reverse
  have he := congrArg List.reverse (printed_append_zeros (List.pairwise_reverse.mpr h))
  rw [hr] at he
  simpa using he

theorem oneGap_of_eq {gs p s : List Group} {m : Nat} (h : gs = p ++ List.replicate m (0, 0) ++ s)
    (hp : ∀ g ∈ p, g ≠ (0, 0)) (hs : ∀ g ∈ s, g ≠ (0, 0)) : OneGap gs := by
  intro i j k hij hjk hk hi hzk
  have hpi : p.length ≤ i := by
    by_contra hlt
    rw [h, List.append_assoc, List.getD_append _ _ _ _ (Nat.lt_of_not_le hlt),
      List.getD_eq_getElem _ _ (Nat.lt_of_not_le hlt)] at hi
    exact hp _ (List.getElem_mem _) hi
  have hmk : k < p.length + m := by
    by_contra hge
    have hl : (p ++ List.replicate m (0, 0)).length ≤ k := by
      simpa using Nat.le_of_not_lt hge
    have hks : k - (p ++ List.replicate m (0, 0)).length < s.length := by
      rw [h, List.length_append] at hk
      omega
    rw [h, List.getD_append_right _ _ _ _ hl, List.getD_eq_getElem _ _ hks] at hzk
    exact hs _ (List.getElem_mem _) hzk
  rw [h, List.append_assoc, List.getD_append_right _ _ _ _ (by omega),
    List.getD_append _ _ _ _ (by simp; omega), List.getD_replicate _ (by omega)]

/-- around a zero group -/
theorem oneGap_iff {gs : List Group} {j : Nat} (hj : j < gs.length) (hz : gs.getD j (0, 0) = (0, 0)) :
    OneGap gs ↔ gs = printed (gs.take j) ++
      List.replicate (gs.length - (printed (gs.take j)).length - (printed (gs.drop j)).length) (0, 0) ++
      printed (gs.drop j) := by
  constructor
  · intro h
    have hget : ∀ i (hi : i < gs.length), gs.getD i (0, 0) = gs[i] := fun i hi =>
      List.getD_eq_getElem _ _ hi
    have hfront : (gs.take j).Pairwise fun a b => a = (0, 0) → b = (0, 0) := by
      rw [List.pairwise_iff_getElem]
      intro i k hi hk hik he
      rw [List.length_take] at hi hk
      rw [List.getElem_take, ← hget] at he ⊢
      exact h i k j hik (by omega) hj he hz
    have hback : (gs.drop j).Pairwise fun a b => b = (0, 0) → a = (0, 0) := by
      rw [List.pairwise_iff_getElem]
      intro i k hi hk hik he
      rw [List.length_drop] at hi hk
      rw [List.getElem_drop, ← hget] at he ⊢
      rcases Nat.eq_zero_or_pos i with rfl | hpos
      · exact hz
      · exact h j (j + i) (j + k) (by omega) (by omega) (by omega) hz he
    have hpt : (printed (gs.take j)).length ≤ (gs.take j).length := List.length_filter_le _ _
    have hpd : (printed (gs.drop j)).length ≤ (gs.drop j).length := List.length_filter_le _ _
    rw [List.length_take] at hpt
    rw [List.length_drop] at hpd
    conv => lhs; rw [← List.take_append_drop j gs, printed_append_zeros hfront, zeros_append_printed hback]
    rw [List.length_take, List.length_drop, List.append_assoc, ← List.append_assoc (List.replicate _ _),
      List.replicate_append_replicate, ← List.append_assoc]
    congr 3
    omega
  · exact fun h => oneGap_of_eq h (fun _ => printed_ne) fun _ => printed_ne

end EndpointString
