import Iotivity.Coap.Emitted
import Iotivity.Coap.Decoded
import Iotivity.Lib.Cut

/-!
# Strings cut into options and merged again

`coap_serialize_array_option` cuts a string at a separator, and `coap_merge_multi_option` puts the
separators back.  Behind a separator the loop skips a byte, the end of the string included, and it runs
one byte too far; the merger takes an empty first part for a string that has not been started.

* `splitReads`         the positions that the loop looks at;
* `splitParts_eq_cut`  the parts are those of `Cut.cut`, and a stray byte behind a last separator;
* `RoundTrips`         the options that are written, decoded and merged, are the string;
* `split_merge_iff`    what is read outside the string, and which strings come back.
-/

namespace Coap
open Memory DeltaCode Cut

/-! ## definitions -/

/-- the positions of `array` that the loop of `coap_serialize_array_option` reads -/
def splitReads (array : Nat → UInt8) (length : Nat) (splitChar : UInt8) : Nat → Nat → Nat → List Nat
  | 0, _, _ => []
  | fuel+1, j, partStart =>
    if j ≤ length + 1 then
      if array j = splitChar ∨ j = length then
        j :: ((List.range (j - partStart)).map (partStart + ·) ++
          splitReads array length splitChar fuel (j + 2) (j + 1))
      else j :: splitReads array length splitChar fuel (j + 1) partStart
    else []

def arrayReads (array : Nat → UInt8) (length : Nat) (splitChar : UInt8) : List Nat :=
  if splitChar ≠ 0 then splitReads array length splitChar (length + 2) 0 0 else List.range length

/-- the options that are written, decoded and merged, are the string -/
def RoundTrips (number currentNumber : Nat) (array : Nat → UInt8) (length : Nat) (c : UInt8) : Prop :=
  let emitted := coapSerializeArrayOption number currentNumber array length c (some 0) fun _ => 0
  ∃ vs : List (List UInt8),
    decode currentNumber (read emitted.2 0 emitted.1) = (vs.map (number, ·), .empty) ∧
      vs.foldl (mergeMultiOption · · c) [] = read array 0 length

/-- the byte behind the string, if the one behind it is a separator -/
def strayPart (array : Nat → UInt8) (length : Nat) (c : UInt8) : List (List UInt8) :=
  if array (length + 1) = c then [[array length]] else []

/-! ## parts -/

section
variable (array : Nat → UInt8) (length : Nat) (c : UInt8)

/-- behind the end there is nothing more -/
theorem splitParts_past (fuel j start : Nat) (h : length + 1 < j) :
    splitParts array length c fuel j start = [] := by
  cases fuel with
  | zero => rfl
  | succ fuel =>
    unfold splitParts
    rw [if_neg (by omega)]

/-- the byte behind the end is looked at if the last byte was taken for a separator -/
theorem splitParts_stray (fuel : Nat) :
    splitParts array length c (fuel + 1) (length + 1) length = strayPart array length c := by
  unfold splitParts strayPart
  rw [if_pos (Nat.le_refl _)]
  by_cases h : array (length + 1) = c
  · rw [if_pos (Or.inl h), if_pos h, splitParts_past _ _ _ _ _ _ (by omega),
      show length + 1 - length = 1 by omega, read_succ, read_zero]
  · rw [if_neg (fun hj => hj.elim h (by omega)), if_neg h, splitParts_past _ _ _ _ _ _ (by omega)]

/-- the end of the string -/
theorem cut_read_end (acc : List UInt8) :
    cut c acc (read array length (length - length)) = ([acc], false) := by
  rw [Nat.sub_self, read_zero, cut]

/-- a separator is the last byte -/
theorem cut_read_last {j : Nat} (hj : array j = c) (hl : length = j + 1) (acc : List UInt8) :
    cut c acc (read array j (length - j)) = ([acc], true) := by
  rw [hl, Nat.add_sub_cancel_left, read_succ, read_zero, cut, if_pos hj]

/-- a separator, and the byte behind it -/
theorem cut_read_sep {j : Nat} (hj : array j = c) (hl : j + 1 < length) (acc : List UInt8) :
    cut c acc (read array j (length - j)) =
      (acc :: (cut c (read array (j + 1) 1) (read array (j + 2) (length - (j + 2)))).1,
        (cut c (read array (j + 1) 1) (read array (j + 2) (length - (j + 2)))).2) := by
  rw [show length - j = (length - (j + 2)) + 1 + 1 by omega, read_succ, read_succ, cut, if_pos hj]
  rfl

/-- any other byte -/
theorem cut_read_other {j : Nat} (hj : array j ≠ c) (hl : j < length) (acc : List UInt8) :
    cut c acc (read array j (length - j)) =
      cut c (acc ++ [array j]) (read array (j + 1) (length - (j + 1))) := by
  rw [show length - j = (length - (j + 1)) + 1 by omega, read_succ]
  cases length - (j + 1) with
  | zero =>
    rw [read_zero]
    unfold cut
    rw [if_neg hj]
  | succ n => rw [read_succ array (j + 1) n, cut, if_neg hj]

/-- from position `j` on, `fuel` rounds being enough -/
theorem splitParts_eq_cut (fuel : Nat) : ∀ j start, start ≤ j → j ≤ length → length + 2 ≤ j + fuel →
    splitParts array length c fuel j start =
      (cut c (read array start (j - start)) (read array j (length - j))).1 ++
        if (cut c (read array start (j - start)) (read array j (length - j))).2 then
          strayPart array length c
        else [] := by
  induction fuel with
  | zero =>
    intro j start h1 h2 h3
    omega
  | succ fuel ih =>
    intro j start h1 h2 h3
    unfold splitParts
    rw [if_pos (by omega)]
    rcases Nat.lt_or_eq_of_le h2 with hlt | rfl
    · by_cases hc : array j = c
      · rw [if_pos (Or.inl hc)]
        by_cases hlast : length = j + 1
        · obtain ⟨fuel, rfl⟩ : ∃ f, fuel = f + 1 := ⟨fuel - 1, by omega⟩
          rw [cut_read_last array length c hc hlast]
          subst hlast
          rw [splitParts_stray]
          rfl
        · have hnext := ih (j + 2) (j + 1) (by omega) (by omega) (by omega)
          rw [show j + 2 - (j + 1) = 1 by omega] at hnext
          rw [cut_read_sep array length c hc (by omega), hnext]
          rfl
      · have hsnoc : read array start (j + 1 - start) = read array start (j - start) ++ [array j] := by
          rw [show j + 1 - start = (j - start) + 1 by omega, read_add, read_succ, read_zero,
            show start + (j - start) = j by omega]
        rw [if_neg (fun hj => hj.elim hc (by omega)), cut_read_other array length c hc hlt, ← hsnoc]
        exact ih (j + 1) start (by omega) (by omega) (by omega)
    · rw [if_pos (Or.inr rfl), splitParts_past _ _ _ _ _ _ (by omega), cut_read_end]
      rfl

/-! ## reads -/

/-- somewhere the loop looks at the end of the string, or behind it -/
theorem splitReads_outside (fuel : Nat) : ∀ j start, j ≤ length + 1 → length + 2 ≤ j + fuel →
    ∃ i ∈ splitReads array length c fuel j start, length ≤ i := by
  induction fuel with
  | zero =>
    intro j start h1 h2
    omega
  | succ fuel ih =>
    intro j start h1 h2
    unfold splitReads
    rw [if_pos h1]
    rcases Nat.lt_or_ge j length with hlt | hge
    · by_cases hj : array j = c ∨ j = length
      · rw [if_pos hj]
        obtain ⟨i, hi, hle⟩ := ih (j + 2) (j + 1) (by omega) (by omega)
        exact ⟨i, List.mem_cons_of_mem _ (List.mem_append_right _ hi), hle⟩
      · rw [if_neg hj]
        obtain ⟨i, hi, hle⟩ := ih (j + 1) start (by omega) (by omega)
        exact ⟨i, List.mem_cons_of_mem _ hi, hle⟩
    · refine ⟨j, ?_, hge⟩
      split <;> exact List.mem_cons_self

theorem splitReads_past (fuel j start : Nat) (h : length + 1 < j) :
    splitReads array length c fuel j start = [] := by
  cases fuel with
  | zero => rfl
  | succ fuel =>
    unfold splitReads
    rw [if_neg (by omega)]

/-- the loop goes no further than the end, unless the last byte is taken for a separator -/
theorem splitReads_within (fuel : Nat) : ∀ j start acc, start ≤ j → j ≤ length →
    length + 2 ≤ j + fuel →
    ((∀ i ∈ splitReads array length c fuel j start, i ≤ length) ↔
      (cut c acc (read array j (length - j))).2 = false) := by
  induction fuel with
  | zero =>
    intro j start acc h1 h2 h3
    omega
  | succ fuel ih =>
    intro j start acc h1 h2 h3
    have hpart : ∀ i ∈ (List.range (j - start)).map (start + ·), i ≤ length := by
      intro i hi
      obtain ⟨k, hk, rfl⟩ := List.mem_map.mp hi
      have := List.mem_range.mp hk
      omega
    unfold splitReads
    rw [if_pos (by omega)]
    rcases Nat.lt_or_eq_of_le h2 with hlt | rfl
    · by_cases hc : array j = c
      · rw [if_pos (Or.inl hc), List.forall_mem_cons, List.forall_mem_append]
        by_cases hlast : length = j + 1
        · -- the byte two places further is looked at
          obtain ⟨fuel, rfl⟩ : ∃ f, fuel = f + 1 := ⟨fuel - 1, by omega⟩
          rw [cut_read_last array length c hc hlast]
          refine iff_of_false (fun h => ?_) Bool.noConfusion
          have := h.2.2 (j + 2) (by
            unfold splitReads
            rw [if_pos (by omega)]
            split <;> exact List.mem_cons_self)
          omega
        · rw [cut_read_sep array length c hc (by omega)]
          rw [ih (j + 2) (j + 1) (read array (j + 1) 1) (by omega) (by omega) (by omega)]
          exact ⟨fun h => h.2.2, fun h => ⟨h2, hpart, h⟩⟩
      · rw [if_neg (fun hj => hj.elim hc (by omega)), cut_read_other array length c hc hlt,
          List.forall_mem_cons, ih (j + 1) start (acc ++ [array j]) (by omega) (by omega) (by omega)]
        exact ⟨fun h => h.2, fun h => ⟨h2, h⟩⟩
    · rw [if_pos (Or.inr rfl), splitReads_past _ _ _ _ _ _ (by omega), cut_read_end,
        List.append_nil, List.forall_mem_cons]
      exact iff_of_true ⟨Nat.le_refl _, hpart⟩ rfl

/-! ## the whole string -/

theorem splitParts_whole : splitParts array length c (length + 2) 0 0 =
    (cut c [] (read array 0 length)).1 ++
      if (cut c [] (read array 0 length)).2 then strayPart array length c else [] :=
  splitParts_eq_cut array length c (length + 2) 0 0 (Nat.le_refl _) (Nat.zero_le _) (by omega)

variable {array length c}

/-- what is written, as the code of the parts -/
theorem read_emitted {number current : Nat} (hc : c ≠ 0) :
    read (coapSerializeArrayOption number current array length c (some 0) fun _ => 0).2 0
        (coapSerializeArrayOption number current array length c (some 0) fun _ => 0).1 =
      encode current ((splitParts array length c (length + 2) 0 0).map (number, ·)) := by
  unfold coapSerializeArrayOption
  rw [if_pos hc, splitLoop_eq, Nat.zero_add, advance_zero, store_some]
  exact read_write_self _ 0 _

theorem strayPart_single (hend : array length ≠ c) :
    strayPart array length c = [] ∨ ∃ x, x ≠ c ∧ strayPart array length c = [[x]] := by
  unfold strayPart
  split
  · exact Or.inr ⟨_, hend, rfl⟩
  · exact Or.inl rfl

/-- with pieces that an option can hold, the parts are decoded as they are -/
theorem roundTrips_short {number current : Nat} (hcur : current ≤ number) (hnum : number ≤ 0xFFFF)
    (hc : c ≠ 0) (hshort : ∀ v ∈ splitParts array length c (length + 2) 0 0, v.length < 65805) :
    RoundTrips number current array length c ↔
      (splitParts array length c (length + 2) 0 0).foldl (merge c) [] = read array 0 length := by
  have hd := decode_encode current _ [] .empty (encodable_map current number _ (by omega) hshort hcur) decode_nil
  rw [List.append_nil] at hd
  unfold RoundTrips
  dsimp only
  rw [read_emitted hc, hd]
  constructor
  · rintro ⟨vs, hvs, hm⟩
    have hinj : Function.Injective fun v : List UInt8 => (number, v) := fun _ _ h => (Prod.mk.inj h).2
    rw [(List.map_injective_iff.mpr hinj) (Prod.mk.inj hvs).1]
    exact hm
  · intro hm
    exact ⟨_, rfl, hm⟩

/-- a piece that no option can hold is cut short, and the string does not come back -/
theorem roundTrips_long {number current : Nat} (hcur : current ≤ number) (hnum : number ≤ 0xFFFF)
    (hc : c ≠ 0) (hlong : ∃ p ∈ (cut c [] (read array 0 length)).1, 65805 ≤ p.length) :
    ¬ RoundTrips number current array length c := by
  -- the first piece that is too long
  obtain ⟨p, hp⟩ : ∃ p, (cut c [] (read array 0 length)).1.find? (65805 ≤ ·.length) = some p := by
    obtain ⟨q, hq, hlen⟩ := hlong
    exact Option.isSome_iff_exists.mp (List.find?_isSome.mpr ⟨q, hq, decide_eq_true hlen⟩)
  obtain ⟨hlen, pre, post, hpieces, hpre⟩ := List.find?_eq_some_iff_append.mp hp
  have hlen : 65805 ≤ p.length := of_decide_eq_true hlen
  have hpre : ∀ v ∈ pre, v.length < 65805 := by
    intro v hv
    have := hpre v hv
    simp only [Bool.not_eq_true', decide_eq_false_iff_not] at this
    omega
  rintro ⟨vs, hd, hm⟩
  rw [read_emitted hc, splitParts_whole, hpieces, List.append_assoc, List.cons_append,
    List.map_append, List.map_cons, encode_append] at hd
  obtain ⟨k, hk1, hk2, hk3, he⟩ := encode_long (lastNumber current (pre.map (number, ·))) number hlen
    ((post ++ if (cut c [] (read array 0 length)).2 then strayPart array length c else []).map
      (number, ·))
  have hshort : ∀ v ∈ pre ++ [p.take k], v.length < 65805 := by
    intro v hv
    rcases List.mem_append.mp hv with hv | hv
    · exact hpre v hv
    · rw [List.mem_singleton.mp hv, List.length_take]
      omega
  have happ := encode_append current (pre.map (number, ·)) [(number, p.take k)]
  rw [he, ← List.append_assoc, ← happ] at hd
  have hmap : pre.map (number, ·) ++ [(number, p.take k)] = (pre ++ [p.take k]).map (number, ·) := by
    simp
  rw [hmap, decode_encode_append _ _ _ (encodable_map current number _ (by omega) hshort hcur)] at hd
  obtain ⟨h1, h2⟩ := Prod.mk.inj hd
  -- its rest is taken for an option, or more
  have hrest := decode_ne_nil (by
    intro hnil
    have := congrArg List.length (List.append_eq_nil_iff.mp hnil).1
    rw [List.length_drop, List.length_nil] at this
    omega) h2
  obtain ⟨o, os, ho⟩ := List.exists_cons_of_ne_nil hrest
  rw [ho] at h1
  obtain ⟨us, ws, rfl, hus, hws⟩ := List.map_eq_append_iff.mp h1.symm
  have hinj : Function.Injective fun v : List UInt8 => (number, v) := fun _ _ h => (Prod.mk.inj h).2
  obtain rfl := List.map_injective_iff.mpr hinj hus
  obtain ⟨v, ws, rfl, _, _⟩ := List.map_eq_cons_iff.mp hws
  rw [List.append_assoc, List.singleton_append] at hm
  exact merge_short c hpieces (by omega) hk2 v ws hm

end

/-- a string that neither starts nor ends with the separator comes back -/
theorem foldl_mergeMultiOption_stringParts (s : List UInt8) (c : UInt8) (hc : c ≠ 0)
    (hhead : s.head? ≠ some c) (hlast : s.getLast? ≠ some c) :
    (stringParts s c).foldl (mergeMultiOption · · c) [] = s := by
  have hend : cString s s.length ≠ c := by
    unfold cString
    rw [List.getD_eq_default _ _ (Nat.le_refl _)]
    exact Ne.symm hc
  unfold stringParts
  rw [if_pos hc, splitParts_whole, read_cString s 0 _ (by omega), List.drop_zero, List.take_length]
  exact (merge_cut_iff c s (strayPart_single hend)).mpr ⟨hhead, by rw [trailing_eq_zero c hlast]⟩

/-! ## which strings come back -/

/-- Of every string the loop reads a byte that is not part of it, and behind the byte at its end as well
if it ends with an odd number of separators.  A string comes back if it does not start with a separator,
ends with an even number of them and has no piece that is too long for an option. -/
theorem split_merge_iff {number current : Nat} (hcur : current ≤ number) (hnum : number ≤ 0xFFFF)
    {c : UInt8} (hc : c ≠ 0) (array : Nat → UInt8) (length : Nat) (hend : array length ≠ c) :
    (∃ i ∈ arrayReads array length c, length ≤ i) ∧
      ((∀ i ∈ arrayReads array length c, i ≤ length) ↔ trailing c (read array 0 length) % 2 = 0) ∧
      (RoundTrips number current array length c ↔
        (read array 0 length).head? ≠ some c ∧ trailing c (read array 0 length) % 2 = 0 ∧
          ∀ p ∈ (cut c [] (read array 0 length)).1, p.length ≤ 65804) := by
  unfold arrayReads
  rw [if_pos hc]
  refine ⟨splitReads_outside array length c _ 0 0 (Nat.zero_le _) (by omega), ?_, ?_⟩
  · have h := splitReads_within array length c (length + 2) 0 0 [] (Nat.le_refl _) (Nat.zero_le _)
      (by omega)
    rw [h, Nat.sub_zero, ← Bool.not_eq_true, cut_flag]
    omega
  · by_cases hlong : ∃ p ∈ (cut c [] (read array 0 length)).1, 65805 ≤ p.length
    · refine iff_of_false (roundTrips_long hcur hnum hc hlong) fun h => ?_
      obtain ⟨p, hp, hlen⟩ := hlong
      have := h.2.2 p hp
      omega
    · have hshort : ∀ p ∈ (cut c [] (read array 0 length)).1, p.length ≤ 65804 := by
        intro p hp
        by_contra hlt
        exact hlong ⟨p, hp, by omega⟩
      have hstray := strayPart_single hend
      rw [roundTrips_short hcur hnum hc, splitParts_whole, merge_cut_iff c _ hstray]
      · exact ⟨fun h => ⟨h.1, h.2, hshort⟩, fun h => ⟨h.1, h.2.1⟩⟩
      · intro v hv
        rw [splitParts_whole] at hv
        rcases List.mem_append.mp hv with hv | hv
        · have := hshort v hv
          omega
        · split at hv
          · rcases hstray with h | ⟨x, _, h⟩
            · rw [h] at hv
              cases hv
            · rw [h] at hv
              rw [List.mem_singleton.mp hv]
              show 1 < 65805
              omega
          · cases hv

/-- two separators in a row are kept -/
theorem split_merge_double : RoundTrips coapOptionUriPath 0 (cString [0x61, 0x2F, 0x2F, 0x62]) 4 slash :=
  (split_merge_iff (by decide) (by decide) (by decide) (cString [0x61, 0x2F, 0x2F, 0x62]) 4
    (by decide)).2.2.mpr ⟨by decide, by decide, by decide⟩

/-- `a/` comes back as `a`, and the byte behind its terminating zero is read; `&a` comes back as `a` -/
theorem separators_lost :
    ¬ RoundTrips coapOptionUriPath 0 (cString [0x61, 0x2F]) 2 slash ∧
      3 ∈ arrayReads (cString [0x61, 0x2F]) 2 slash ∧
      ¬ RoundTrips coapOptionUriQuery coapOptionUriPath (cString [0x26, 0x61]) 2 ampersand := by
  refine ⟨?_, by decide, ?_⟩
  · rw [roundTrips_short (by decide) (by decide) (by decide) (by decide)]
    decide
  · rw [roundTrips_short (by decide) (by decide) (by decide) (by decide)]
    decide

end Coap
