import Iotivity.Endpoint.Strings

/-!
# The loop of `oc_parse_ipv6_address`

The text between the brackets is cut at colons; empty segments only move the position, a segment of one
to four characters fills two bytes of the address, and a longer one is not handled: the loop stays
where it is.

* `step_eq`       what one iteration does, as a function of the segment at the position;
* `loop_ends`     the loop ends when no segment that it gets to is longer than four characters;
* `loop_runs`     it runs for ever when one is;
* `loop_safe`     it never reads or writes outside, in either case.
-/

namespace EndpointString
open Security

/-! ## reading at a position -/

theorem charAt_of_drop {text t : Bytes} {i : Nat} {c : UInt8} (h : text.drop i = c :: t) :
    charAt text i = .ok c := by
  have hc : text[i]? = some c := by
    rw [← Nat.add_zero i, ← List.getElem?_drop, h]
    rfl
  rw [charAt, hc]

theorem drop_succ_of_drop {text t : Bytes} {i : Nat} {c : UInt8} (h : text.drop i = c :: t) :
    text.drop (i + 1) = t := by
  rw [← List.drop_drop, h]
  rfl

theorem hexToBin_one {text t : Bytes} {i : Nat} {a : UInt8} (h : text.drop i = a :: t) :
    hexToBin text i 1 = .ok (nibbleOf a) := by
  rw [hexToBin, charAt_of_drop h]
  rfl

theorem hexToBin_two {text t : Bytes} {i : Nat} {a b : UInt8} (h : text.drop i = a :: b :: t) :
    hexToBin text i 2 = .ok ((nibbleOf a <<< 4) ||| nibbleOf b) := by
  rw [hexToBin, charAt_of_drop h, charAt_of_drop (drop_succ_of_drop h)]
  rfl

theorem store_eq {addr : Bytes} {i : Nat} (h : i < addr.length) (v : UInt8) :
    store addr i v = .ok (addr.set i v) := if_pos h

theorem findIdx?_getD (r : Bytes) :
    (r.findIdx? (· = 58)).getD r.length = (r.takeWhile (· ≠ 58)).length := by
  induction r with
  | nil => rfl
  | cons c r ih =>
    rw [List.findIdx?_cons]
    by_cases hc : c = 58
    · rw [if_pos (decide_eq_true hc), List.takeWhile_cons_of_neg (by simp [hc])]
      rfl
    · rw [if_neg (by simp [hc]), List.takeWhile_cons_of_pos (by simp [hc]), List.length_cons,
        List.length_cons, ← ih]
      cases r.findIdx? (· = 58) <;> rfl

/-! ## segments -/

/-- the two bytes that a segment of one to four characters stands for -/
def segGroup : Bytes → Option (UInt8 × UInt8)
  | [a] => some (0, nibbleOf a)
  | [a, b] => some (0, (nibbleOf a <<< 4) ||| nibbleOf b)
  | [a, b, c] => some (nibbleOf a, (nibbleOf b <<< 4) ||| nibbleOf c)
  | [a, b, c, d] =>
    some ((nibbleOf a <<< 4) ||| nibbleOf b, (nibbleOf c <<< 4) ||| nibbleOf d)
  | _ => none

/-- the locals behind a segment -/
def Parse.took (st : Parse) (seg : Bytes) : Parse :=
  match segGroup seg with
  | some (hi, lo) =>
    { st with
      strIdx := st.strIdx + seg.length
      addrIdx := st.addrIdx + 2
      addr := (st.addr.set st.addrIdx hi).set (st.addrIdx + 1) lo }
  | none => if seg = [] then { st with strIdx := st.strIdx + 1 } else st

/-- the address is whole, and two bytes of it are filled at a time -/
structure Parse.Sound (st : Parse) : Prop where
  length_addr : st.addr.length = 16
  even : st.addrIdx % 2 = 0
  le : st.addrIdx ≤ 16
  split_le : ∀ k, st.split = some k → k ≤ st.addrIdx

theorem storeGroup_eq {st : Parse} (h : st.Sound) (hi : st.addrIdx < 15) (a b : UInt8) (i : Nat) :
    st.storeGroup a b i = .ok { st with
      strIdx := i
      addrIdx := st.addrIdx + 2
      addr := (st.addr.set st.addrIdx a).set (st.addrIdx + 1) b } := by
  have h₁ : st.addrIdx < st.addr.length := by rw [h.length_addr]; omega
  have h₂ : st.addrIdx + 1 < (st.addr.set st.addrIdx a).length := by
    rw [List.length_set, h.length_addr]
    omega
  rw [Parse.storeGroup, store_eq h₁]
  show (store _ _ b >>= fun addr => _) = _
  rw [store_eq h₂]
  rfl

theorem segment_eq {text : Bytes} {st : Parse} (h : st.Sound) (hi : st.addrIdx < 15) {seg rest : Bytes}
    (ht : text.drop st.strIdx = seg ++ rest) : st.segment text seg.length = .ok (st.took seg) := by
  rcases seg with _ | ⟨a, _ | ⟨b, _ | ⟨c, _ | ⟨d, _ | ⟨e, seg⟩⟩⟩⟩⟩
  · rfl
  · show (hexToBin text st.strIdx 1 >>= fun x => st.storeGroup 0 x (st.strIdx + 1)) = _
    rw [hexToBin_one ht]
    exact storeGroup_eq h hi _ _ _
  · show (hexToBin text st.strIdx 2 >>= fun x => st.storeGroup 0 x (st.strIdx + 2)) = _
    rw [hexToBin_two ht]
    exact storeGroup_eq h hi _ _ _
  · show (hexToBin text st.strIdx 1 >>= fun x => hexToBin text (st.strIdx + 1) 2 >>= fun y =>
      st.storeGroup x y (st.strIdx + 3)) = _
    rw [hexToBin_one ht, hexToBin_two (drop_succ_of_drop ht)]
    exact storeGroup_eq h hi _ _ _
  · have ht2 : text.drop (st.strIdx + 2) = c :: d :: rest :=
      drop_succ_of_drop (drop_succ_of_drop ht)
    show (hexToBin text st.strIdx 2 >>= fun x => hexToBin text (st.strIdx + 2) 2 >>= fun y =>
      st.storeGroup x y (st.strIdx + 4)) = _
    rw [hexToBin_two ht, hexToBin_two ht2]
    exact storeGroup_eq h hi _ _ _
  · rfl

/-! ## one iteration -/

section
variable {t more : Bytes}

/-- the text between the brackets, in its buffer -/
abbrev inBrackets (t more : Bytes) : Bytes := t ++ 93 :: more

theorem drop_inBrackets {i : Nat} (h : i ≤ t.length) :
    (inBrackets t more).drop i = t.drop i ++ 93 :: more := List.drop_append_of_le_length h

theorem memchrAt_eq (more : Bytes) {i : Nat} (h : i ≤ t.length) :
    ∃ next, memchrAt (inBrackets t more) i 58 (sizeDiff t.length i) = .ok next ∧
      next.getD (sizeDiff t.length i) = ((t.drop i).takeWhile (· ≠ 58)).length := by
  have hn : sizeDiff t.length i = (t.drop i).length := by
    rw [sizeDiff, if_pos h, List.length_drop]
  have ht : ((inBrackets t more).drop i).take (t.drop i).length = t.drop i := by
    rw [drop_inBrackets h, List.take_left]
  have hg := findIdx?_getD (t.drop i)
  rw [hn, memchrAt, ht]
  cases hf : (t.drop i).findIdx? (· = 58) with
  | some k =>
    rw [hf] at hg
    exact ⟨some k, rfl, hg⟩
  | none =>
    rw [hf] at hg
    refine ⟨none, if_pos ?_, hg⟩
    rw [List.length_drop, List.length_append]
    omega

/-- `::` at a position between the brackets -/
theorem doubleColonAt_eq {i : Nat} (h : i < t.length) :
    doubleColonAt (inBrackets t more) i = .ok (decide ([58, 58] <+: t.drop i)) := by
  obtain ⟨c, r, hr⟩ := List.exists_cons_of_ne_nil (List.ne_nil_of_length_pos
    (show 0 < (t.drop i).length by rw [List.length_drop]; omega))
  have ht : (inBrackets t more).drop i = c :: (r ++ 93 :: more) := by
    rw [drop_inBrackets (Nat.le_of_lt h), hr]
    rfl
  rw [doubleColonAt, charAt_of_drop ht, hr]
  show (if c = 58 then _ else _) = _
  by_cases hc : c = 58
  · rw [if_pos hc, hc]
    cases r with
    | nil =>
      rw [charAt_of_drop (drop_succ_of_drop ht)]
      rfl
    | cons d r =>
      rw [charAt_of_drop (drop_succ_of_drop ht)]
      show Except.ok (decide (d = 58)) = _
      refine congrArg Except.ok (decide_eq_decide.mpr ?_)
      simp [eq_comm]
  · rw [if_neg hc]
    show Except.ok false = _
    refine congrArg Except.ok (decide_eq_false fun hp => hc ?_).symm
    exact (List.cons_prefix_cons.mp hp).1.symm

/-- the locals behind the test for `::` -/
def Parse.skip (t : Bytes) (st : Parse) : Parse :=
  if st.split = none ∧ [58, 58] <+: t.drop st.strIdx then
    { st with split := some st.addrIdx, strIdx := st.strIdx + 2 }
  else st

/-- the segment at the position -/
def Parse.seg (t : Bytes) (st : Parse) : Bytes := (t.drop st.strIdx).takeWhile (· ≠ 58)

theorem Parse.Sound.skip {st : Parse} (h : st.Sound) (t : Bytes) : (st.skip t).Sound := by
  unfold Parse.skip
  split
  · exact ⟨h.length_addr, h.even, h.le, fun k hk => Nat.le_of_eq (Option.some.inj hk).symm⟩
  · exact h

theorem skip_addrIdx (st : Parse) (t : Bytes) : (st.skip t).addrIdx = st.addrIdx := by
  unfold Parse.skip
  split <;> rfl

theorem skip_le {st : Parse} (h : st.strIdx < t.length) : (st.skip t).strIdx ≤ t.length := by
  unfold Parse.skip
  split
  · next hc =>
    have hl := hc.2.length_le
    rw [List.length_drop] at hl
    show st.strIdx + 2 ≤ t.length
    simp only [List.length_cons, List.length_nil] at hl
    omega
  · exact Nat.le_of_lt h

theorem step_eq {st : Parse} (h : st.Sound) (ha : st.addrIdx < 15) (hs : st.strIdx < t.length) :
    st.step (inBrackets t more) t.length = .ok ((st.skip t).took ((st.skip t).seg t)) := by
  have hd : st.double (inBrackets t more) =
      .ok (decide (st.split = none ∧ [58, 58] <+: t.drop st.strIdx)) := by
    unfold Parse.double
    split
    · next hn =>
      rw [doubleColonAt_eq hs]
      refine congrArg Except.ok (decide_eq_decide.mpr ?_)
      exact (and_iff_right hn).symm
    · next hn =>
      exact congrArg Except.ok (decide_eq_false fun hc => hn hc.1).symm
  obtain ⟨next, hm, hg⟩ := memchrAt_eq more (skip_le hs)
  have hseg : ((inBrackets t more).drop (st.skip t).strIdx) =
      (st.skip t).seg t ++ ((t.drop (st.skip t).strIdx).dropWhile (· ≠ 58) ++ 93 :: more) := by
    rw [drop_inBrackets (skip_le hs), Parse.seg, ← List.append_assoc, List.takeWhile_append_dropWhile]
  have hrest : st.step (inBrackets t more) t.length =
      (memchrAt (inBrackets t more) (st.skip t).strIdx 58 (sizeDiff t.length (st.skip t).strIdx) >>=
        fun next => (st.skip t).segment (inBrackets t more)
          (next.getD (sizeDiff t.length (st.skip t).strIdx))) := by
    rw [Parse.step, hd]
    show (let st' := if decide _ = true then _ else st
      memchrAt _ st'.strIdx 58 _ >>= _) = _
    unfold Parse.skip
    by_cases hc : st.split = none ∧ [58, 58] <+: t.drop st.strIdx
    · rw [if_pos hc, if_pos (decide_eq_true hc)]
    · rw [if_neg hc, if_neg (by simpa using hc)]
  rw [hrest, hm]
  show (st.skip t).segment _ (next.getD _) = _
  rw [hg]
  exact segment_eq (h.skip t) (by rw [skip_addrIdx]; exact ha) hseg

theorem Parse.Sound.took {st : Parse} (h : st.Sound) (hi : st.addrIdx < 15) (seg : Bytes) :
    (st.took seg).Sound := by
  have he := h.even
  unfold Parse.took
  split
  · refine ⟨?_, ?_, ?_, fun k hk => Nat.le_add_right_of_le (h.split_le k hk)⟩
    · show ((st.addr.set _ _).set _ _).length = 16
      rw [List.length_set, List.length_set, h.length_addr]
    · show (st.addrIdx + 2) % 2 = 0
      omega
    · show st.addrIdx + 2 ≤ 16
      omega
  · split
    · exact ⟨h.length_addr, h.even, h.le, h.split_le⟩
    · exact h

/-! ## the loop -/

/-- an iteration, as a function -/
def Parse.next (t : Bytes) (st : Parse) : Parse := (st.skip t).took ((st.skip t).seg t)

theorem Parse.Sound.next {st : Parse} (h : st.Sound) (hi : st.addrIdx < 15) (t : Bytes) :
    (st.next t).Sound :=
  (h.skip t).took (by rw [skip_addrIdx]; exact hi) _

theorem ipv6Loop_stop {text : Bytes} {len : Nat} {st : Parse} (h : ¬ (st.addrIdx < 15 ∧ st.strIdx < len))
    (fuel : Nat) : ipv6Loop text len fuel st = .ok st := by
  unfold ipv6Loop
  rw [if_neg h]

theorem ipv6Loop_zero {text : Bytes} {len : Nat} {st : Parse} (h : st.addrIdx < 15 ∧ st.strIdx < len) :
    ipv6Loop text len 0 st = .error .running := by
  unfold ipv6Loop
  rw [if_pos h]

theorem ipv6Loop_succ {st : Parse} (hs : st.Sound) (h : st.addrIdx < 15 ∧ st.strIdx < t.length)
    (fuel : Nat) : ipv6Loop (inBrackets t more) t.length (fuel + 1) st =
      ipv6Loop (inBrackets t more) t.length fuel (st.next t) := by
  rw [ipv6Loop, if_pos h]
  show (st.step (inBrackets t more) t.length >>= _) = _
  rw [step_eq hs h.1 h.2]
  rfl

/-- no run of the loop leaves the text or the address -/
theorem loop_safe (more : Bytes) {st : Parse} (hs : st.Sound) (fuel : Nat) :
    ipv6Loop (inBrackets t more) t.length fuel st = .error .running ∨
      ∃ st', ipv6Loop (inBrackets t more) t.length fuel st = .ok st' ∧ st'.Sound := by
  induction fuel generalizing st with
  | zero =>
    by_cases h : st.addrIdx < 15 ∧ st.strIdx < t.length
    · exact Or.inl (ipv6Loop_zero h)
    · exact Or.inr ⟨st, ipv6Loop_stop h 0, hs⟩
  | succ fuel ih =>
    by_cases h : st.addrIdx < 15 ∧ st.strIdx < t.length
    · rw [ipv6Loop_succ hs h]
      exact ih (hs.next h.1 t)
    · exact Or.inr ⟨st, ipv6Loop_stop h _, hs⟩

/-! ## which runs end -/

/-- the segments that are not empty -/
def segments (r : Bytes) : List Bytes := (r.splitOn 58).filter (· ≠ [])

theorem segments_nil : segments [] = [] := rfl

theorem segments_colon (r : Bytes) : segments (58 :: r) = segments r := by
  unfold segments
  rw [List.splitOn_cons_eq_if_modifyHead, if_pos (beq_self_eq_true _),
    List.filter_cons_of_neg (by simp)]

/-- the first segment, and those behind it -/
theorem segments_word {r : Bytes} (h : r.takeWhile (· ≠ 58) ≠ []) :
    segments r = r.takeWhile (· ≠ 58) :: segments (r.dropWhile (· ≠ 58)) := by
  have hn : (58 : UInt8) ∉ r.takeWhile (· ≠ 58) := fun hm => by
    simpa using List.mem_takeWhile_imp hm
  have hr : r.takeWhile (· ≠ 58) ++ r.dropWhile (· ≠ 58) = r := List.takeWhile_append_dropWhile
  have hc : ∀ c t, r.dropWhile (· ≠ 58) = c :: t → c = 58 := by
    intro c t hd
    have hh := List.head?_dropWhile_not (· ≠ (58 : UInt8)) r
    rw [hd] at hh
    simpa using hh
  generalize r.takeWhile (· ≠ 58) = w at *
  generalize r.dropWhile (· ≠ 58) = rest at *
  rw [← hr]
  cases rest with
  | nil =>
    rw [List.append_nil, segments, List.splitOn_eq_singleton hn, List.filter_cons_of_pos (by simpa using h)]
    rfl
  | cons c t =>
    rw [hc c t rfl, segments_colon, segments, List.splitOn_append_cons_self_of_not_mem hn,
      List.filter_cons_of_pos (by simpa using h)]
    rfl

/-- no segment that the loop gets to before the address is full has more than four characters -/
def Parse.Short (t : Bytes) (st : Parse) : Prop :=
  ∀ seg ∈ (segments (t.drop st.strIdx)).take ((16 - st.addrIdx) / 2), seg.length ≤ 4

theorem skip_segments (st : Parse) :
    segments (t.drop (st.skip t).strIdx) = segments (t.drop st.strIdx) := by
  unfold Parse.skip
  split
  · next hc =>
    obtain ⟨r, hr⟩ := hc.2
    rw [← List.drop_drop, ← hr]
    show segments r = segments (58 :: 58 :: r)
    rw [segments_colon, segments_colon]
  · rfl

theorem le_skip (st : Parse) : st.strIdx ≤ (st.skip t).strIdx := by
  unfold Parse.skip
  split
  · exact Nat.le_add_right _ 2
  · exact Nat.le_refl _

theorem segGroup_isSome {seg : Bytes} (h : seg ≠ []) (hl : seg.length ≤ 4) :
    ∃ g, segGroup seg = some g := by
  rcases seg with _ | ⟨a, _ | ⟨b, _ | ⟨c, _ | ⟨d, _ | ⟨e, seg⟩⟩⟩⟩⟩
  · exact absurd rfl h
  · exact ⟨_, rfl⟩
  · exact ⟨_, rfl⟩
  · exact ⟨_, rfl⟩
  · exact ⟨_, rfl⟩
  · exact absurd hl (by simp)

theorem segGroup_long {seg : Bytes} (hl : 4 < seg.length) : segGroup seg = none := by
  rcases seg with _ | ⟨a, _ | ⟨b, _ | ⟨c, _ | ⟨d, _ | ⟨e, seg⟩⟩⟩⟩⟩
  · simp at hl
  · simp at hl
  · simp at hl
  · simp at hl
  · simp at hl
  · rfl

/-- an iteration gets on in the text, or stays at a segment of more than four characters -/
theorem next_cases {st : Parse} (hs : st.Sound) (h : st.addrIdx < 15 ∧ st.strIdx < t.length) :
    (st.strIdx < (st.next t).strIdx ∧ ((st.next t).Short t ↔ st.Short t)) ∨
      (st.next t = st.skip t ∧ 4 < ((st.skip t).seg t).length ∧ ¬ st.Short t) := by
  have heven := hs.even
  have hle := le_skip (t := t) st
  have hsegs := skip_segments (t := t) st
  have haddr := skip_addrIdx st t
  have hnext : st.next t = (st.skip t).took ((st.skip t).seg t) := rfl
  unfold Parse.Short
  rw [hnext, ← hsegs, ← haddr]
  rw [← haddr] at heven h
  generalize st.skip t = st₁ at *
  by_cases he : st₁.seg t = []
  · -- an empty segment: a colon, or the end behind a double one
    have ht : st₁.took (st₁.seg t) = { st₁ with strIdx := st₁.strIdx + 1 } := by
      rw [he]
      rfl
    have hsame : segments (t.drop (st₁.strIdx + 1)) = segments (t.drop st₁.strIdx) := by
      rw [← List.drop_drop]
      unfold Parse.seg at he
      cases hr : t.drop st₁.strIdx with
      | nil => rfl
      | cons c r =>
        rw [hr] at he
        by_cases hc : c = 58
        · rw [hc, segments_colon]
          rfl
        · rw [List.takeWhile_cons_of_pos (by simpa using hc)] at he
          cases he
    rw [ht]
    refine Or.inl ⟨Nat.lt_succ_of_le hle, ?_⟩
    show (∀ seg ∈ (segments (t.drop (st₁.strIdx + 1))).take _, _) ↔ _
    rw [hsame]
  · have hw := segments_word he
    by_cases hl : (st₁.seg t).length ≤ 4
    · obtain ⟨⟨hi, lo⟩, hg⟩ := segGroup_isSome he hl
      have hdrop : t.drop (st₁.strIdx + (st₁.seg t).length) = (t.drop st₁.strIdx).dropWhile (· ≠ 58) := by
        rw [← List.drop_drop]
        have hr : st₁.seg t ++ (t.drop st₁.strIdx).dropWhile (· ≠ 58) = t.drop st₁.strIdx :=
          List.takeWhile_append_dropWhile
        rw [← hr, List.drop_left, hr]
      have hpos : 0 < (st₁.seg t).length := List.length_pos_of_ne_nil he
      rw [Parse.took, hg]
      refine Or.inl ⟨?_, ?_⟩
      · show st.strIdx < st₁.strIdx + (st₁.seg t).length
        omega
      · show (∀ seg ∈ (segments (t.drop (st₁.strIdx + (st₁.seg t).length))).take
          ((16 - (st₁.addrIdx + 2)) / 2), _) ↔ _
        rw [hdrop, hw, show (16 - st₁.addrIdx) / 2 = (16 - (st₁.addrIdx + 2)) / 2 + 1 by omega,
          List.take_succ_cons, List.forall_mem_cons]
        exact (and_iff_right hl).symm
    · have hlong : 4 < (st₁.seg t).length := Nat.lt_of_not_le hl
      rw [Parse.took, segGroup_long hlong]
      refine Or.inr ⟨if_neg he, hlong, fun hshort => hl (hshort _ ?_)⟩
      rw [hw, show (16 - st₁.addrIdx) / 2 = (16 - (st₁.addrIdx + 2)) / 2 + 1 by omega,
        List.take_succ_cons]
      exact List.mem_cons_self

theorem loop_ends (more : Bytes) {st : Parse} (hs : st.Sound) (hshort : st.Short t) :
    ∃ fuel st', ipv6Loop (inBrackets t more) t.length fuel st = .ok st' := by
  induction hn : t.length - st.strIdx using Nat.strong_induction_on generalizing st with
  | _ n ih =>
  by_cases h : st.addrIdx < 15 ∧ st.strIdx < t.length
  · rcases next_cases hs h with ⟨hlt, hiff⟩ | ⟨-, -, hno⟩
    · obtain ⟨fuel, st', he⟩ := ih (t.length - (st.next t).strIdx) (by omega) (hs.next h.1 t)
        (hiff.mpr hshort) rfl
      exact ⟨fuel + 1, st', by rw [ipv6Loop_succ hs h, he]⟩
    · exact absurd hshort hno
  · exact ⟨0, st, ipv6Loop_stop h 0⟩

/-- an iteration that changes nothing -/
theorem loop_stuck (more : Bytes) {st : Parse} (hs : st.Sound)
    (h : st.addrIdx < 15 ∧ st.strIdx < t.length) (hn : st.next t = st) (fuel : Nat) :
    ipv6Loop (inBrackets t more) t.length fuel st = .error .running := by
  induction fuel with
  | zero => exact ipv6Loop_zero h
  | succ fuel ih => rw [ipv6Loop_succ hs h, hn, ih]

theorem skip_skip (st : Parse) : (st.skip t).skip t = st.skip t := by
  by_cases hc : st.split = none ∧ [58, 58] <+: t.drop st.strIdx
  · have he : st.skip t = { st with split := some st.addrIdx, strIdx := st.strIdx + 2 } := if_pos hc
    rw [he]
    exact if_neg fun hc => nomatch hc.1
  · have he : st.skip t = st := if_neg hc
    rw [he, he]

/-- where the loop has stopped, no segment is left to get to -/
theorem Parse.Sound.short_of_stop {st : Parse} (hs : st.Sound)
    (h : ¬ (st.addrIdx < 15 ∧ st.strIdx < t.length)) : st.Short t := by
  intro seg hm
  have he := hs.even
  have hle := hs.le
  by_cases ha : st.addrIdx < 15
  · rw [List.drop_of_length_le (Nat.le_of_not_lt fun hl => h ⟨ha, hl⟩), segments_nil, List.take_nil] at hm
    cases hm
  · rw [show (16 - st.addrIdx) / 2 = 0 by omega, List.take_zero] at hm
    cases hm

theorem loop_runs (more : Bytes) {st : Parse} (hs : st.Sound) (hlong : ¬ st.Short t) (fuel : Nat) :
    ipv6Loop (inBrackets t more) t.length fuel st = .error .running := by
  induction fuel generalizing st with
  | zero =>
    by_cases h : st.addrIdx < 15 ∧ st.strIdx < t.length
    · exact ipv6Loop_zero h
    · exact absurd (hs.short_of_stop h) hlong
  | succ fuel ih =>
    by_cases h : st.addrIdx < 15 ∧ st.strIdx < t.length
    · rw [ipv6Loop_succ hs h]
      rcases next_cases hs h with ⟨-, hiff⟩ | ⟨he, hl, -⟩
      · exact ih (hs.next h.1 t) fun hc => hlong (hiff.mp hc)
      · -- from the next position on the locals stay as they are
        have hpos : (st.skip t).strIdx < t.length := by
          by_contra hge
          rw [Parse.seg, List.drop_of_length_le (Nat.le_of_not_lt hge)] at hl
          exact absurd hl (by simp)
        have hstay : (st.skip t).next t = st.skip t := by
          rw [Parse.next, skip_skip]
          exact he
        rw [he]
        exact loop_stuck more (hs.skip t) ⟨by rw [skip_addrIdx]; exact h.1, hpos⟩ hstay fuel
    · exact absurd (hs.short_of_stop h) hlong

end

end EndpointString
