import Iotivity.Lib.Memory
import Mathlib.Tactic.Ring

/-!
# Delta-coded option lists

A list of numbered values, in ascending order of the numbers, is coded as one entry a value: a
byte with two nibbles (the difference to the previous number, the length of the value), their
extension bytes, then the value.  A nibble below 13 is the amount itself, 13 announces one
extension byte (bias 13) and 14 two of them (bias 269).  A byte with the high nibble 15 ends the
list; the rest is payload.

* `encode`          the code of an option list;
* `decode`          the options of a byte string and how they end;
* `decode_encode`   decoding undoes encoding for ascending lists with small enough gaps;
* `decode_number_le`   a bound on the option numbers by the length of the byte string;
* `fieldAt_eq`      reading an amount through a cursor in memory.
-/

set_option linter.unusedVariables false

namespace DeltaCode

/-! ## amounts -/

def nibble (v : Nat) : Nat := if v < 13 then v else if v ≤ 268 then 13 else 14

/-- extension bytes of an amount -/
def extension (v : Nat) : List UInt8 :=
  if 268 < v then [UInt8.ofNat ((v - 269) / 256), UInt8.ofNat (v - 269)]
  else if 12 < v then [UInt8.ofNat (v - 13)]
  else []

theorem nibble_lt (v : Nat) : nibble v < 15 := by
  unfold nibble
  split_ifs <;> omega

theorem length_extension_le (v : Nat) : (extension v).length ≤ 2 := by
  unfold extension
  split_ifs <;> simp

/-- the amount announced by a nibble, and the bytes behind its extension -/
def takeField (nib : Nat) : List UInt8 → Option (Nat × List UInt8)
  | a :: b :: l =>
    if nib = 13 then some (13 + a.toNat, b :: l)
    else if nib = 14 then some (269 + (a.toNat * 256 + b.toNat), l)
    else some (nib, a :: b :: l)
  | [a] =>
    if nib = 13 then some (13 + a.toNat, [])
    else if nib = 14 then none
    else some (nib, [a])
  | [] => if nib = 13 then none else if nib = 14 then none else some (nib, [])

/-- the same through a cursor: the amount and the cursor behind it -/
def fieldAt (m : Nat → UInt8) (nib cur : Nat) : Nat × Nat :=
  if nib = 13 then (13 + (m cur).toNat, cur + 1)
  else if nib = 14 then (269 + ((m cur).toNat * 256 + (m (cur + 1)).toNat), cur + 2)
  else (nib, cur)

theorem takeField_extension (v : Nat) (hv : v < 65805) (l : List UInt8) :
    takeField (nibble v) (extension v ++ l) = some (v, l) := by
  unfold nibble extension
  by_cases h1 : v < 13
  · rw [if_pos h1, if_neg (by omega), if_neg (by omega), List.nil_append]
    rcases l with _ | ⟨a, _ | ⟨b, l⟩⟩ <;>
      simp [takeField, show v ≠ 13 by omega, show v ≠ 14 by omega]
  · rw [if_neg h1]
    by_cases h2 : v ≤ 268
    · rw [if_pos h2, if_neg (by omega), if_pos (by omega)]
      have e : (UInt8.ofNat (v - 13)).toNat = v - 13 := by
        simp only [UInt8.toNat_ofNat']; omega
      have e' : 13 + (v - 13) = v := by omega
      rcases l with _ | ⟨b, l⟩ <;>
        simp only [List.cons_append, List.nil_append, takeField, e, ↓reduceIte, e']
    · rw [if_neg h2, if_pos (by omega)]
      have ea : (UInt8.ofNat ((v - 269) / 256)).toNat = (v - 269) / 256 := by
        simp only [UInt8.toNat_ofNat']; omega
      have eb : (UInt8.ofNat (v - 269)).toNat = (v - 269) % 256 := UInt8.toNat_ofNat'
      have e : 269 + ((v - 269) / 256 * 256 + (v - 269) % 256) = v := by omega
      simp only [List.cons_append, List.nil_append, takeField, ea, eb, e]
      rfl

/-- a field never makes the rest longer, and its amount is small against what it takes -/
theorem takeField_some {nib v : Nat} {l r : List UInt8} (h : takeField nib l = some (v, r))
    (hn : nib < 15) : r.length ≤ l.length ∧ v ≤ 21935 * (l.length + 1 - r.length) := by
  rcases l with _ | ⟨a, _ | ⟨b, l⟩⟩
  · simp only [takeField] at h
    split_ifs at h with h1 h2
    · cases h
      simp
      omega
  · simp only [takeField] at h
    have ha := a.toNat_lt
    split_ifs at h with h1 h2 <;> cases h <;> simp <;> omega
  · simp only [takeField] at h
    have ha := a.toNat_lt
    have hb := b.toNat_lt
    split_ifs at h with h1 h2 <;> cases h <;> simp <;> omega

/-- the cursor form reads what the list form takes, as long as the block has enough bytes -/
theorem fieldAt_eq {m : Nat → UInt8} {nib cur n v : Nat} {r : List UInt8}
    (h : takeField nib (Memory.read m cur n) = some (v, r)) :
    ∃ k, k ≤ n ∧ fieldAt m nib cur = (v, cur + k) ∧ r = Memory.read m (cur + k) (n - k) := by
  rcases n with _ | _ | n
  · simp only [Memory.read_zero, takeField] at h
    split_ifs at h with h1 h2
    cases h
    exact ⟨0, le_rfl, by simp [fieldAt, h1, h2], rfl⟩
  · simp only [Memory.read_succ, Memory.read_zero, takeField] at h
    split_ifs at h with h1 h2
    · cases h
      exact ⟨1, le_rfl, by simp [fieldAt, h1], rfl⟩
    · cases h
      exact ⟨0, by omega, by simp [fieldAt, h1, h2], rfl⟩
  · simp only [Memory.read_succ, takeField] at h
    split_ifs at h with h1 h2
    · cases h
      exact ⟨1, by omega, by simp [fieldAt, h1], (Memory.read_succ m (cur + 1) n).symm⟩
    · cases h
      exact ⟨2, by omega, by simp [fieldAt, h2], rfl⟩
    · cases h
      refine ⟨0, by omega, by simp [fieldAt, h1, h2], ?_⟩
      show _ = Memory.read m cur (n + 1 + 1)
      rw [Memory.read_succ, Memory.read_succ]

/-- without enough bytes the cursor form runs past the end of the block -/
theorem fieldAt_past {m : Nat → UInt8} {nib cur n : Nat}
    (h : takeField nib (Memory.read m cur n) = none) : cur + n < (fieldAt m nib cur).2 := by
  rcases n with _ | _ | n
  · simp only [Memory.read_zero, takeField] at h
    split_ifs at h with h1 h2
    · simp [fieldAt, h1]
    · simp [fieldAt, h2]
  · simp only [Memory.read_succ, Memory.read_zero, takeField] at h
    split_ifs at h with h1 h2
    simp [fieldAt, h2]
  · simp only [Memory.read_succ, takeField] at h
    split_ifs at h

theorem le_fieldAt (m : Nat → UInt8) (nib cur : Nat) : cur ≤ (fieldAt m nib cur).2 := by
  unfold fieldAt
  split_ifs <;> simp

/-! ## entries -/

/-- nibble byte and extensions of an entry -/
def header (delta length : Nat) : List UInt8 :=
  UInt8.ofNat (nibble delta * 16 + nibble length) :: (extension delta ++ extension length)

theorem toNat_nibbles (a b : Nat) (ha : a < 16) (hb : b < 16) :
    (UInt8.ofNat (a * 16 + b)).toNat = a * 16 + b := by
  simp only [UInt8.toNat_ofNat']; omega

/-- difference, length and rest of an entry behind its nibble byte -/
def takeHeader (b : UInt8) (l : List UInt8) : Option (Nat × Nat × List UInt8) :=
  match takeField (b.toNat / 16) l with
  | none => none
  | some (d, l) =>
    match takeField (b.toNat % 16) l with
    | none => none
    | some (n, l) => some (d, n, l)

theorem takeHeader_header (delta length : Nat) (hd : delta < 65805) (hl : length < 65805)
    (l : List UInt8) :
    takeHeader (UInt8.ofNat (nibble delta * 16 + nibble length))
      (extension delta ++ extension length ++ l) = some (delta, length, l) := by
  have h1 := nibble_lt delta
  have h2 := nibble_lt length
  have e1 : (nibble delta * 16 + nibble length) / 16 = nibble delta := by omega
  have e2 : (nibble delta * 16 + nibble length) % 16 = nibble length := by omega
  unfold takeHeader
  rw [toNat_nibbles _ _ (by omega) (by omega), e1, e2, List.append_assoc,
    takeField_extension delta hd]
  simp only [takeField_extension length hl]

theorem takeHeader_some {b : UInt8} {l r : List UInt8} {d n : Nat}
    (h : takeHeader b l = some (d, n, r)) (hb : b.toNat < 240) :
    r.length ≤ l.length ∧ d ≤ 21935 * (l.length + 1 - r.length) := by
  unfold takeHeader at h
  split at h
  · cases h
  · rename_i d' l' h1
    split at h
    · cases h
    · rename_i n' l'' h2
      cases h
      obtain ⟨a1, a2⟩ := takeField_some h1 (by omega)
      by_cases h15 : b.toNat % 16 < 15
      · obtain ⟨b1, b2⟩ := takeField_some h2 h15
        exact ⟨b1.trans a1, a2.trans (Nat.mul_le_mul_left _ (by omega))⟩
      · have e : b.toNat % 16 = 15 := by omega
        have hr : r = l' := by
          rw [e] at h2
          rcases l' with _ | ⟨x, _ | ⟨y, l'⟩⟩ <;> cases h2 <;> rfl
        subst hr
        exact ⟨a1, a2⟩

/-- a header through a cursor: difference, length and the cursor behind it -/
def headerAt (m : Nat → UInt8) (b : UInt8) (cur : Nat) : Nat × Nat × Nat :=
  let (d, cur) := fieldAt m (b.toNat / 16) cur
  let (n, cur) := fieldAt m (b.toNat % 16) cur
  (d, n, cur)

theorem headerAt_eq {m : Nat → UInt8} {b : UInt8} {cur k d n : Nat} {r : List UInt8}
    (h : takeHeader b (Memory.read m cur k) = some (d, n, r)) :
    ∃ j, j ≤ k ∧ headerAt m b cur = (d, n, cur + j) ∧ r = Memory.read m (cur + j) (k - j) := by
  unfold takeHeader at h
  split at h
  · cases h
  · rename_i d' l h1
    split at h
    · cases h
    · rename_i n' l' h2
      cases h
      obtain ⟨i, hi, e1, rfl⟩ := fieldAt_eq h1
      obtain ⟨j, hj, e2, rfl⟩ := fieldAt_eq h2
      refine ⟨i + j, by omega, ?_, ?_⟩
      · unfold headerAt
        simp only [e1, e2, Nat.add_assoc]
      · rw [Nat.add_assoc, Nat.sub_sub]

/-- an entry that does not fit ends behind the block -/
theorem headerAt_past {m : Nat → UInt8} {b : UInt8} {cur k : Nat}
    (h : ∀ d n r, takeHeader b (Memory.read m cur k) = some (d, n, r) → r.length < n) :
    cur + k < (headerAt m b cur).2.2 + (headerAt m b cur).2.1 := by
  show cur + k < (fieldAt m (b.toNat % 16) (fieldAt m (b.toNat / 16) cur).2).2
    + (fieldAt m (b.toNat % 16) (fieldAt m (b.toNat / 16) cur).2).1
  cases h1 : takeField (b.toNat / 16) (Memory.read m cur k) with
  | none =>
    have e1 := fieldAt_past h1
    have e2 := le_fieldAt m (b.toNat % 16) (fieldAt m (b.toNat / 16) cur).2
    omega
  | some x =>
    obtain ⟨d, l⟩ := x
    obtain ⟨i, hi, e1, rfl⟩ := fieldAt_eq h1
    rw [e1]
    cases h2 : takeField (b.toNat % 16) (Memory.read m (cur + i) (k - i)) with
    | none =>
      have e2 := fieldAt_past h2
      show cur + k < (fieldAt m (b.toNat % 16) (cur + i)).2 + _
      omega
    | some y =>
      obtain ⟨n, l'⟩ := y
      have hr := h d n l' (by unfold takeHeader; rw [h1]; simp only [h2])
      obtain ⟨j, hj, e2, rfl⟩ := fieldAt_eq h2
      rw [Memory.length_read] at hr
      rw [e2]
      show cur + k < cur + i + j + n
      omega

/-! ## option lists -/

/-- how an option list ends -/
inductive Ending where
  | empty
  | payload (p : List UInt8)
  | truncated

/-- options coded in a byte string, the previous option number being `number` -/
def decode (number : Nat) : List UInt8 → List (Nat × List UInt8) × Ending
  | [] => ([], .empty)
  | b :: l =>
    if hb : 240 ≤ b.toNat then ([], .payload l)
    else
      match h : takeHeader b l with
      | none => ([], .truncated)
      | some (d, n, r) =>
        if r.length < n then ([], .truncated)
        else
          ((number + d, r.take n) :: (decode (number + d) (r.drop n)).1,
            (decode (number + d) (r.drop n)).2)
termination_by l => l.length
decreasing_by
  all_goals
    have := (takeHeader_some h (by omega)).1
    simp only [List.length_drop, List.length_cons]
    omega

theorem decode_nil (number : Nat) : decode number [] = ([], .empty) := by
  rw [decode]

theorem decode_marker (number : Nat) (b : UInt8) (l : List UInt8) (hb : 240 ≤ b.toNat) :
    decode number (b :: l) = ([], .payload l) := by
  rw [decode, dif_pos hb]

theorem decode_truncated (number : Nat) (b : UInt8) (l : List UInt8) (hb : b.toNat < 240)
    (h : ∀ d n r, takeHeader b l = some (d, n, r) → r.length < n) :
    decode number (b :: l) = ([], .truncated) := by
  rw [decode, dif_neg (by omega)]
  split
  · rfl
  · rename_i d n r hr
    rw [if_pos (h d n r hr)]

theorem decode_entry (number : Nat) (b : UInt8) (l : List UInt8) (hb : b.toNat < 240)
    {d n : Nat} {r : List UInt8} (h : takeHeader b l = some (d, n, r)) (hn : n ≤ r.length) :
    decode number (b :: l) = ((number + d, r.take n) :: (decode (number + d) (r.drop n)).1,
      (decode (number + d) (r.drop n)).2) := by
  rw [decode, dif_neg (by omega)]
  split
  · rename_i h'
    rw [h] at h'
    cases h'
  · rename_i d' n' r' h'
    rw [h] at h'
    cases h'
    rw [if_neg (by omega)]

/-- the code of an option list, the previous option number being `number` -/
def encode (number : Nat) : List (Nat × List UInt8) → List UInt8
  | [] => []
  | (n, v) :: os => header (n - number) v.length ++ v ++ encode n os

/-- ascending numbers, gaps and lengths that two extension bytes can hold -/
def Encodable (number : Nat) : List (Nat × List UInt8) → Prop
  | [] => True
  | (n, v) :: os => number ≤ n ∧ n - number < 65805 ∧ v.length < 65805 ∧ Encodable n os

/-- the last option number -/
def lastNumber (number : Nat) : List (Nat × List UInt8) → Nat
  | [] => number
  | (n, _) :: os => lastNumber n os

theorem encode_append (number : Nat) (a b : List (Nat × List UInt8)) :
    encode number (a ++ b) = encode number a ++ encode (lastNumber number a) b := by
  induction a generalizing number with
  | nil => rfl
  | cons o a ih =>
    obtain ⟨n, v⟩ := o
    simp only [List.cons_append, encode, lastNumber, ih, List.append_assoc]

/-- an option takes at most five bytes more than its value -/
theorem length_encode_le (number : Nat) (os : List (Nat × List UInt8)) :
    (encode number os).length ≤ (os.map fun o => 5 + o.2.length).sum := by
  induction os generalizing number with
  | nil => exact le_refl _
  | cons o os ih =>
    have h := ih o.1
    have h1 := length_extension_le (o.1 - number)
    have h2 := length_extension_le o.2.length
    simp only [encode, header, List.length_append, List.length_cons, List.map_cons,
      List.sum_cons] at h ⊢
    omega

theorem lastNumber_append (number : Nat) (a b : List (Nat × List UInt8)) :
    lastNumber number (a ++ b) = lastNumber (lastNumber number a) b := by
  induction a generalizing number with
  | nil => rfl
  | cons o a ih =>
    obtain ⟨n, v⟩ := o
    exact ih n

theorem encodable_append (number : Nat) (a b : List (Nat × List UInt8)) :
    Encodable number (a ++ b) ↔ Encodable number a ∧ Encodable (lastNumber number a) b := by
  induction a generalizing number with
  | nil => simp [Encodable, lastNumber]
  | cons o a ih =>
    obtain ⟨n, v⟩ := o
    simp only [List.cons_append, Encodable, lastNumber, ih, and_assoc]

/-- values of one option number -/
theorem encodable_map (c b : Nat) (vs : List (List UInt8)) (hb : b < 65805)
    (hv : ∀ v ∈ vs, v.length < 65805) (hcb : c ≤ b) : Encodable c (vs.map (b, ·)) := by
  induction vs generalizing c with
  | nil => trivial
  | cons v vs ih =>
    exact ⟨hcb, by omega, hv v (List.mem_cons_self ..),
      ih b (fun w hw => hv w (List.mem_cons_of_mem _ hw)) le_rfl⟩

/-- options, and then what the rest of the byte string holds -/
theorem decode_encode_append (number : Nat) (os : List (Nat × List UInt8)) (tail : List UInt8)
    (hos : Encodable number os) :
    decode number (encode number os ++ tail)
      = (os ++ (decode (lastNumber number os) tail).1, (decode (lastNumber number os) tail).2) := by
  induction os generalizing number with
  | nil => rfl
  | cons o os ih =>
    obtain ⟨n, v⟩ := o
    obtain ⟨h1, h2, h3, h4⟩ := hos
    have hb : (UInt8.ofNat (nibble (n - number) * 16 + nibble v.length)).toNat < 240 := by
      have := nibble_lt (n - number)
      have := nibble_lt v.length
      rw [toNat_nibbles _ _ (by omega) (by omega)]
      omega
    have hh := takeHeader_header (n - number) v.length h2 h3 (v ++ (encode n os ++ tail))
    have hsplit : encode number ((n, v) :: os) ++ tail
        = UInt8.ofNat (nibble (n - number) * 16 + nibble v.length)
          :: (extension (n - number) ++ extension v.length ++ (v ++ (encode n os ++ tail))) := by
      simp [encode, header, List.append_assoc]
    have e' : number + (n - number) = n := by omega
    rw [hsplit, decode_entry number _ _ hb hh (by simp), e', List.take_left', List.drop_left',
      ih n h4] <;> rfl

/-- **Decoding undoes encoding**, whatever way the byte string ends. -/
theorem decode_encode (number : Nat) (os : List (Nat × List UInt8)) (tail : List UInt8)
    (e : Ending) (hos : Encodable number os) (htail : ∀ n, decode n tail = ([], e)) :
    decode number (encode number os ++ tail) = (os, e) := by
  rw [decode_encode_append number os tail hos, htail, List.append_nil]

/-- bytes that are all taken up by options hold at least one -/
theorem decode_ne_nil {number : Nat} {l : List UInt8} (hl : l ≠ [])
    (h : (decode number l).2 = .empty) : (decode number l).1 ≠ [] := by
  obtain ⟨b, l, rfl⟩ := List.exists_cons_of_ne_nil hl
  by_cases hb : 240 ≤ b.toNat
  · rw [decode_marker number b l hb] at h
    cases h
  · by_cases hx : ∃ d n r, takeHeader b l = some (d, n, r) ∧ n ≤ r.length
    · obtain ⟨d, n, r, hr, hn⟩ := hx
      rw [decode_entry number b l (by omega) hr hn]
      exact List.cons_ne_nil _ _
    · rw [decode_truncated number b l (by omega)
        (fun d n r hr => by by_contra hc; exact hx ⟨d, n, r, hr, by omega⟩)] at h
      cases h

/-- the two extension bytes hold a length modulo `2^16`, counted from `269` -/
theorem header_wrapped (delta : Nat) {length : Nat} (h : 269 ≤ length) :
    header delta length = header delta (269 + (length - 269) % 65536) := by
  have hn : nibble (269 + (length - 269) % 65536) = nibble length := by
    unfold nibble
    split_ifs <;> omega
  have he : extension (269 + (length - 269) % 65536) = extension length := by
    unfold extension
    rw [if_pos (by omega), if_pos (by omega), Nat.add_sub_cancel_left]
    have h1 : UInt8.ofNat ((length - 269) % 65536 / 256) = UInt8.ofNat ((length - 269) / 256) := by
      apply UInt8.toNat_inj.mp
      rw [UInt8.toNat_ofNat', UInt8.toNat_ofNat']
      omega
    have h2 : UInt8.ofNat ((length - 269) % 65536) = UInt8.ofNat (length - 269) := by
      apply UInt8.toNat_inj.mp
      rw [UInt8.toNat_ofNat', UInt8.toNat_ofNat']
      omega
    rw [h1, h2]
  unfold header
  rw [hn, he]

/-- a value that is too long is cut short, and its rest is taken for options -/
theorem encode_long (number n : Nat) {v : List UInt8} (hv : 65805 ≤ v.length)
    (os : List (Nat × List UInt8)) : ∃ k, 269 ≤ k ∧ k < v.length ∧ k < 65805 ∧
      encode number ((n, v) :: os) = encode number [(n, v.take k)] ++ (v.drop k ++ encode n os) := by
  refine ⟨269 + (v.length - 269) % 65536, by omega, by omega, by omega, ?_⟩
  have hlen : (v.take (269 + (v.length - 269) % 65536)).length
      = 269 + (v.length - 269) % 65536 := by
    rw [List.length_take]
    omega
  simp only [encode, hlen, header_wrapped (n - number) (show 269 ≤ v.length by omega)]
  rw [← List.append_assoc _ (v.drop _), List.append_nil, List.append_assoc _ (v.take _),
    List.take_append_drop]

/-- option numbers are bounded by the length of the byte string -/
theorem decode_number_le (number : Nat) (l : List UInt8) :
    ∀ o ∈ (decode number l).1, o.1 ≤ number + 21935 * l.length := by
  induction hk : l.length using Nat.strong_induction_on generalizing l number with
  | _ k ih =>
    subst hk
    intro o ho
    rcases l with _ | ⟨b, l⟩
    · rw [decode_nil] at ho
      cases ho
    · by_cases hb : 240 ≤ b.toNat
      · rw [decode_marker number b l hb] at ho
        cases ho
      · by_cases hx : ∃ d n r, takeHeader b l = some (d, n, r) ∧ n ≤ r.length
        · obtain ⟨d, n, r, hr, hn⟩ := hx
          rw [decode_entry number b l (by omega) hr hn] at ho
          obtain ⟨h1, h2⟩ := takeHeader_some hr (by omega)
          rcases List.mem_cons.mp ho with rfl | ho
          · simp only [List.length_cons]
            omega
          · have := ih (r.drop n).length (by simp only [List.length_drop, List.length_cons]; omega)
              (number + d) (r.drop n) rfl o ho
            simp only [List.length_drop, List.length_cons] at this ⊢
            omega
        · rw [decode_truncated number b l (by omega)
            (fun d n r hr => by by_contra hc; exact hx ⟨d, n, r, hr, by omega⟩)] at ho
          cases ho

end DeltaCode
