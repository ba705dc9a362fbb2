import Iotivity.Security.Mediation

/-!
# Texts of uuids: what `oc_str_to_uuid` keeps, reads and writes

The parser goes through 36 characters; it has no test for the end of the text and none for the end of
the uuid.  `strAccesses` lists the positions that the loop of `ocStrToUuid` reads and writes, on a text
with its terminator and anything behind it.

* `uuid_text_bijection`     printed uuids are read back, and a well formed text is printed in lower case;
* `strAccesses_iff`         when the loop stays within the text and the uuid.
-/

namespace Security

/-! ## well formed texts -/

/-- `isxdigit` -/
def isxdigit (ch : UInt8) : Bool :=
  (48 ≤ ch ∧ ch ≤ 57) ∨ (65 ≤ ch ∧ ch ≤ 70) ∨ (97 ≤ ch ∧ ch ≤ 102)

/-- 8-4-4-4-12 hexadecimal digits -/
def UuidForm (s : Bytes) : Prop :=
  ∃ a b c d e : Bytes, s = a ++ 45 :: (b ++ 45 :: (c ++ 45 :: (d ++ 45 :: e))) ∧
    a.length = 8 ∧ b.length = 4 ∧ c.length = 4 ∧ d.length = 4 ∧ e.length = 12 ∧
    ∀ ch ∈ a ++ b ++ c ++ d ++ e, isxdigit ch = true

/-- a character of `lower` -/
def lowerDigit (ch : UInt8) : UInt8 := if 65 ≤ ch ∧ ch ≤ 90 then ch + 32 else ch

theorem lower_eq (s : Bytes) : lower s = s.map lowerDigit := rfl

theorem lowerDigit_spec : ∀ ch : UInt8, isxdigit ch = true →
    lowerDigit ch ≠ 45 ∧ ch ≠ 45 ∧ nibble (lowerDigit ch) = nibble ch ∧ nibble ch < 16 ∧
      hexDigit (nibble ch) = lowerDigit ch :=
  forall_byte (by decide +kernel)

theorem nibbles : ∀ m n : UInt8, m < 16 → n < 16 →
    (m <<< 4 ||| n) >>> 4 = m ∧ (m <<< 4 ||| n) &&& 15 = n := by
  have h : ∀ m n : Fin 16, (UInt8.ofNat m <<< 4 ||| UInt8.ofNat n) >>> 4 = UInt8.ofNat m ∧
      (UInt8.ofNat m <<< 4 ||| UInt8.ofNat n) &&& 15 = UInt8.ofNat n := by
    decide +kernel
  intro m n hm hn
  have hmn := h ⟨m.toNat, UInt8.lt_iff_toNat_lt.mp hm⟩ ⟨n.toNat, UInt8.lt_iff_toNat_lt.mp hn⟩
  rwa [UInt8.ofNat_toNat, UInt8.ofNat_toNat] at hmn

/-! ## reading does not see the case -/

theorem strStep_lower (st : StrState) {ch : UInt8} (h : isxdigit ch = true) :
    strStep st (lowerDigit ch) = strStep st ch := by
  obtain ⟨h1, h2, h3, -, -⟩ := lowerDigit_spec ch h
  unfold strStep
  rw [if_neg h1, if_neg h2, h3]

theorem foldl_lower (l : Bytes) (h : ∀ ch ∈ l, isxdigit ch = true) (st : StrState) :
    (lower l).foldl strStep st = l.foldl strStep st := by
  rw [lower_eq, List.foldl_map]
  induction l generalizing st with
  | nil => rfl
  | cons ch l ih =>
    rw [List.foldl_cons, List.foldl_cons, strStep_lower st (h ch List.mem_cons_self)]
    exact ih (fun x hx => h x (List.mem_cons_of_mem ch hx)) _

/-! ## printing the bytes of a text -/

/-- two digits a byte -/
def pairBytes : Bytes → Bytes
  | [] => []
  | [_] => []
  | hi :: lo :: rest => (nibble hi <<< 4 ||| nibble lo) :: pairBytes rest

theorem length_pairBytes (l : Bytes) : (pairBytes l).length = l.length / 2 := by
  induction l using pairBytes.induct with
  | case1 => rfl
  | case2 => simp [pairBytes]
  | case3 hi lo rest ih =>
    rw [pairBytes, List.length_cons, ih, List.length_cons, List.length_cons]
    omega

theorem hexByte_pair {hi lo : UInt8} (h1 : isxdigit hi = true) (h2 : isxdigit lo = true) :
    hexByte (nibble hi <<< 4 ||| nibble lo) = [lowerDigit hi, lowerDigit lo] := by
  obtain ⟨-, -, -, hm, he1⟩ := lowerDigit_spec hi h1
  obtain ⟨-, -, -, hn, he2⟩ := lowerDigit_spec lo h2
  obtain ⟨hhi, hlo⟩ := nibbles _ _ hm hn
  rw [hexByte, hhi, hlo, he1, he2]

theorem print_pairBytes (l : Bytes) (h : ∀ ch ∈ l, isxdigit ch = true) (he : l.length % 2 = 0) :
    (pairBytes l).flatMap hexByte = lower l := by
  induction l using pairBytes.induct with
  | case1 => rfl
  | case2 => cases he
  | case3 hi lo rest ih =>
    have hrest : rest.length % 2 = 0 := by
      rw [List.length_cons, List.length_cons] at he
      omega
    obtain ⟨hhi, h⟩ := List.forall_mem_cons.mp h
    obtain ⟨hlo, h⟩ := List.forall_mem_cons.mp h
    rw [pairBytes, List.flatMap_cons, hexByte_pair hhi hlo, ih h hrest]
    rfl

/-- a uuid is printed in five groups -/
theorem ocUuidToStr_groups {A B C D E : Bytes} (hA : A.length = 4) (hB : B.length = 2) (hC : C.length = 2)
    (hD : D.length = 2) (hE : E.length = 6) (h : (A ++ B ++ C ++ D ++ E).length = 16) :
    ocUuidToStr ⟨A ++ B ++ C ++ D ++ E, h⟩ = A.flatMap hexByte ++ 45 :: (B.flatMap hexByte ++
      45 :: (C.flatMap hexByte ++ 45 :: (D.flatMap hexByte ++ 45 :: E.flatMap hexByte))) := by
  match A, hA, B, hB, C, hC, D, hD, E, hE with
  | [_, _, _, _], _, [_, _], _, [_, _], _, [_, _], _, [_, _, _, _, _, _], _ => rfl

/-- a well formed text in lower case is what is printed for some uuid -/
theorem exists_printed {s : Bytes} (h : UuidForm s) : ∃ u, ocUuidToStr u = lower s := by
  obtain ⟨a, b, c, d, e, rfl, ha, hb, hc, hd, he, hx⟩ := h
  simp only [List.forall_mem_append] at hx
  obtain ⟨⟨⟨⟨hxa, hxb⟩, hxc⟩, hxd⟩, hxe⟩ := hx
  have hlen : ∀ {l : Bytes} (n : Nat), l.length = 2 * n → (pairBytes l).length = n := by
    intro l n hl
    rw [length_pairBytes, hl, Nat.mul_div_cancel_left n Nat.two_pos]
  have hall : (pairBytes a ++ pairBytes b ++ pairBytes c ++ pairBytes d ++ pairBytes e).length = 16 := by
    simp only [List.length_append, length_pairBytes, ha, hb, hc, hd, he]
  refine ⟨⟨_, hall⟩, ?_⟩
  rw [ocUuidToStr_groups (hlen 4 ha) (hlen 2 hb) (hlen 2 hc) (hlen 2 hd) (hlen 6 he),
    print_pairBytes a hxa (by omega), print_pairBytes b hxb (by omega), print_pairBytes c hxc (by omega),
    print_pairBytes d hxd (by omega), print_pairBytes e hxe (by omega)]
  simp only [lower_eq, List.map_append, List.map_cons]
  rfl

theorem foldl_lower_form {s : Bytes} (h : UuidForm s) (st : StrState) :
    (lower s).foldl strStep st = s.foldl strStep st := by
  obtain ⟨a, b, c, d, e, rfl, -, -, -, -, -, hx⟩ := h
  simp only [List.forall_mem_append] at hx
  obtain ⟨⟨⟨⟨ha, hb⟩, hc⟩, hd⟩, he⟩ := hx
  have hdash : lowerDigit 45 = 45 := rfl
  simp only [lower_eq, List.map_append, List.map_cons, hdash, List.foldl_append, List.foldl_cons]
  simp only [← lower_eq, foldl_lower _ ha, foldl_lower _ hb, foldl_lower _ hc, foldl_lower _ hd,
    foldl_lower _ he]

theorem UuidForm.length {s : Bytes} (h : UuidForm s) : s.length = 36 := by
  obtain ⟨a, b, c, d, e, rfl, ha, hb, hc, hd, he, -⟩ := h
  simp only [List.length_append, List.length_cons, ha, hb, hc, hd, he]

theorem ocStrToUuid_lower {s : Bytes} (h : UuidForm s) (v : Uuid) :
    ocStrToUuid (lower s) v = ocStrToUuid s v := by
  have hlen : (lower s).length = 36 := by rw [lower_eq, List.length_map, h.length]
  rw [ocStrToUuid, ocStrToUuid, uuidText_of_length hlen, uuidText_of_length h.length, foldl_lower_form h]

/-- **Uuids and their texts**: what is printed is read back, and what is read from a well formed text is
printed as that text in lower case. -/
theorem uuid_text_bijection :
    (∀ u v : Uuid, ocStrToUuid (ocUuidToStr u) v = u) ∧
      ∀ s : Bytes, UuidForm s → ∀ v : Uuid, ocUuidToStr (ocStrToUuid s v) = lower s := by
  refine ⟨ocStrToUuid_ocUuidToStr, fun s h v => ?_⟩
  obtain ⟨u, hu⟩ := exists_printed h
  rw [← ocStrToUuid_lower h, ← hu, ocStrToUuid_ocUuidToStr]

/-- a text in mixed case -/
theorem uuid_text_bijection_mixed :
    ocUuidToStr (ocStrToUuid (ascii "0123AbCd-89eF-4567-BA98-76543210fEdC") Uuid.nil) =
      lower (ascii "0123AbCd-89eF-4567-BA98-76543210fEdC") :=
  uuid_text_bijection.2 _ ⟨ascii "0123AbCd", ascii "89eF", ascii "4567", ascii "BA98",
    ascii "76543210fEdC", by decide, rfl, rfl, rfl, rfl, rfl,
    List.all_eq_true.mp (by decide)⟩ Uuid.nil

/-! ## positions read and written -/

/-- an access of the loop: `str[i]` read, `uuid->id[j]` written -/
inductive UuidAccess where
  | read (i : Nat)
  | write (j : Nat)
deriving DecidableEq

/-- inside the text with its terminator, and inside the uuid -/
def UuidAccess.within (s : Bytes) : UuidAccess → Bool
  | read i => i ≤ s.length
  | write j => j < 16

/-- the memory at a text: its characters, the terminator, and what lies behind -/
def textMem (s : Bytes) (behind : Nat → UInt8) (i : Nat) : UInt8 := (s ++ [0]).getD i (behind i)

/-- `strStep` on `str[i]`, with its accesses -/
def strAccess (mem : Nat → UInt8) (x : StrState × List UuidAccess) (i : Nat) :
    StrState × List UuidAccess :=
  (strStep x.1 (mem i),
    x.2 ++ .read i :: if mem i ≠ 45 ∧ (x.1.j + 1) * 2 = x.1.k then [.write x.1.j] else [])

/-- the loop of `oc_str_to_uuid` up to position `n` -/
def strLoop (mem : Nat → UInt8) (uuid : Uuid) (n : Nat) : StrState × List UuidAccess :=
  (List.range n).foldl (strAccess mem) (⟨uuid, 0, 1, 0⟩, [])

/-- the accesses of `oc_str_to_uuid` -/
def strAccesses (mem : Nat → UInt8) (uuid : Uuid) : List UuidAccess := (strLoop mem uuid 36).2

theorem strLoop_succ (mem : Nat → UInt8) (uuid : Uuid) (n : Nat) :
    strLoop mem uuid (n + 1) = strAccess mem (strLoop mem uuid n) n := by
  rw [strLoop, List.range_succ, List.foldl_append]
  rfl

/-- the loop of the model, with accesses -/
theorem strLoop_fst (mem : Nat → UInt8) (uuid : Uuid) (n : Nat) :
    (strLoop mem uuid n).1 = ((List.range n).map mem).foldl strStep ⟨uuid, 0, 1, 0⟩ := by
  induction n with
  | zero => rfl
  | succ n ih =>
    rw [strLoop_succ, List.range_succ, List.map_append, List.foldl_append, ← ih]
    rfl

/-- the characters before position `n` that are no dashes -/
def digitsBefore (mem : Nat → UInt8) (n : Nat) : Nat := ((List.range n).map mem).countP (· ≠ 45)

theorem digitsBefore_succ (mem : Nat → UInt8) (n : Nat) :
    digitsBefore mem (n + 1) = digitsBefore mem n + if mem n ≠ 45 then 1 else 0 := by
  rw [digitsBefore, List.range_succ, List.map_append, List.countP_append, List.map_singleton,
    List.countP_singleton]
  simp only [decide_eq_true_eq]
  rfl

/-- the loop at position `n`: every second digit stores a byte -/
structure LoopAt (mem : Nat → UInt8) (s : Bytes) (n : Nat) (x : StrState × List UuidAccess) : Prop where
  j : x.1.j = digitsBefore mem n / 2
  k : x.1.k = digitsBefore mem n + 1
  within : (∀ a ∈ x.2, a.within s = true) ↔ n ≤ s.length + 1 ∧ digitsBefore mem n / 2 ≤ 16

theorem within_append {s : Bytes} {l l' : List UuidAccess} {n : Nat} :
    (∀ a ∈ l ++ .read n :: l', a.within s = true) ↔
      (∀ a ∈ l, a.within s = true) ∧ n ≤ s.length ∧ ∀ a ∈ l', a.within s = true := by
  rw [List.forall_mem_append, List.forall_mem_cons, UuidAccess.within, decide_eq_true_iff]

theorem LoopAt.step {mem : Nat → UInt8} {s : Bytes} {n : Nat} {x : StrState × List UuidAccess}
    (h : LoopAt mem s n x) : LoopAt mem s (n + 1) (strAccess mem x n) := by
  obtain ⟨hj, hk, hw⟩ := h
  have hd := digitsBefore_succ mem n
  by_cases hdash : mem n = 45
  · -- a dash is read and passed over
    rw [if_neg (not_not.mpr hdash)] at hd
    have hst : (strAccess mem x n).1 = x.1 := if_pos hdash
    refine ⟨by rw [hst, hj, hd]; rfl, by rw [hst, hk, hd], ?_⟩
    rw [strAccess, if_neg (fun hc => hc.1 hdash), within_append, hw, hd]
    simp only [List.not_mem_nil, false_implies, implies_true, and_true]
    omega
  rw [if_pos hdash] at hd
  by_cases hlow : (x.1.j + 1) * 2 = x.1.k
  · -- the second digit of a byte
    have hst : (strAccess mem x n).1 =
        ⟨x.1.uuid.set x.1.j (x.1.c ||| nibble (mem n)), x.1.j + 1, x.1.k + 1, 0⟩ := by
      show strStep x.1 (mem n) = _
      rw [strStep, if_neg hdash, if_pos hlow]
    refine ⟨by rw [hst, hd]; dsimp only; omega, by rw [hst, hd]; dsimp only; omega, ?_⟩
    rw [strAccess, if_pos ⟨hdash, hlow⟩, within_append, hw, hd, List.forall_mem_singleton,
      UuidAccess.within, decide_eq_true_iff]
    omega
  · -- the first one
    have hst : (strAccess mem x n).1 =
        { x.1 with c := (x.1.c ||| nibble (mem n)) <<< 4, k := x.1.k + 1 } := by
      show strStep x.1 (mem n) = _
      rw [strStep, if_neg hdash, if_neg hlow]
    refine ⟨by rw [hst, hd]; dsimp only; omega, by rw [hst, hd, hk], ?_⟩
    rw [strAccess, if_neg (fun hc => hlow hc.2), within_append, hw, hd]
    simp only [List.not_mem_nil, false_implies, implies_true, and_true]
    omega

theorem loopAt_strLoop (mem : Nat → UInt8) (s : Bytes) (uuid : Uuid) (n : Nat) :
    LoopAt mem s n (strLoop mem uuid n) := by
  induction n with
  | zero => exact ⟨(Nat.zero_div 2).symm, rfl, by simp [strLoop, digitsBefore]⟩
  | succ n ih =>
    rw [strLoop_succ]
    exact ih.step

/-- the characters that the loop reads, when the text reaches that far -/
theorem map_textMem {s : Bytes} (behind : Nat → UInt8) {n : Nat} (h : n ≤ s.length + 1) :
    (List.range n).map (textMem s behind) = (s ++ [0]).take n := by
  have hlen : n ≤ (s ++ [0]).length := by rwa [List.length_append]
  refine List.ext_getElem ?_ fun i h1 h2 => ?_
  · rw [List.length_map, List.length_range, List.length_take_of_le hlen]
  rw [List.length_map, List.length_range] at h1
  rw [List.getElem_map, List.getElem_range, List.getElem_take, textMem, List.getD_eq_getElem?_getD,
    List.getElem?_eq_getElem (Nat.lt_of_lt_of_le h1 hlen)]
  rfl

/-- within the text the loop stores what the model does, whatever lies behind -/
theorem strLoop_uuid {s : Bytes} (h : 35 ≤ s.length) (behind : Nat → UInt8) (uuid : Uuid) :
    (strLoop (textMem s behind) uuid 36).1.uuid = ocStrToUuid s uuid := by
  have hzero : uuidText s = (List.range 36).map (textMem s fun _ => 0) := by
    refine List.map_congr_left fun i _ => ?_
    rw [textMem, List.getD_eq_getElem?_getD, List.getD_eq_getElem?_getD]
    rcases Nat.lt_trichotomy i s.length with hi | rfl | hi
    · rw [List.getElem?_append_left hi]
    · rw [List.getElem?_append_right (Nat.le_refl _), Nat.sub_self, List.getElem?_eq_none (Nat.le_refl _)]
      rfl
    · rw [List.getElem?_eq_none (Nat.le_of_lt hi), List.getElem?_eq_none (by simp; omega)]
  rw [strLoop_fst, ocStrToUuid, hzero, map_textMem _ (by omega), map_textMem _ (by omega)]

/-- **When the parser stays in bounds**: the text has 35 characters, and of the 36 that are read, with
the terminator, at most 33 are no dashes. -/
theorem strAccesses_iff (s : Bytes) (behind : Nat → UInt8) (uuid : Uuid) :
    (∀ a ∈ strAccesses (textMem s behind) uuid, a.within s = true) ↔
      35 ≤ s.length ∧ ((s ++ [0]).take 36).countP (· ≠ 45) ≤ 33 := by
  rw [strAccesses, (loopAt_strLoop _ s uuid 36).within]
  constructor
  · rintro ⟨hlen, hdig⟩
    rw [digitsBefore, map_textMem behind hlen] at hdig
    omega
  · rintro ⟨hlen, hdig⟩
    rw [digitsBefore, map_textMem behind (by omega)]
    omega

/-- a text of two characters is read behind its end, one of 36 digits is stored behind the uuid -/
theorem strAccesses_outside :
    (¬ ∀ a ∈ strAccesses (textMem (ascii "ab") fun _ => 0) Uuid.nil, a.within (ascii "ab") = true) ∧
      ¬ ∀ a ∈ strAccesses (textMem (List.replicate 36 48) fun _ => 0) Uuid.nil,
        a.within (List.replicate 36 48) = true := by
  decide

end Security
