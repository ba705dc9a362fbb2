import Iotivity.Endpoint.Groups

/-!
# What `oc_ipv6_endpoint_to_string` prints

The loop prints the groups and remembers where a run of zeros began; behind it the character there is
doubled.  Which of several runs that is does not matter here: `printGroup_keeps` says that it is at a
zero group, and `ipv6Text_gap` and `ipv6Text_plain` what the text is.
-/

namespace EndpointString
open Security Coap

/-- the text of groups behind the bracket -/
def body : List Group → Bytes
  | [] => []
  | g :: gs => (if g = (0, 0) then [] else word g) ++ words (printed gs)

theorem printed_append (gs hs : List Group) : printed (gs ++ hs) = printed gs ++ printed hs :=
  List.filter_append _ _

theorem words_append (gs hs : List Group) : words (gs ++ hs) = words gs ++ words hs :=
  List.flatMap_append

theorem words_printed_cons (g : Group) (gs : List Group) :
    words (printed (g :: gs)) = (if g = (0, 0) then [] else 58 :: word g) ++ words (printed gs) := by
  by_cases hg : g = (0, 0)
  · rw [if_pos hg, printed, List.filter_cons_of_neg (by simpa using hg)]
    rfl
  · rw [if_neg hg, printed, List.filter_cons_of_pos (by simpa using hg)]
    rfl

theorem body_append {gs : List Group} (h : gs ≠ []) (hs : List Group) :
    body (gs ++ hs) = body gs ++ words (printed hs) := by
  obtain ⟨g, gs, rfl⟩ := List.exists_cons_of_ne_nil h
  show _ ++ words (printed (gs ++ hs)) = _ ++ words (printed gs) ++ _
  rw [printed_append, words_append, ← List.append_assoc]

/-- the same in front of a zero group -/
theorem body_append_zero (gs hs : List Group) :
    body (gs ++ (0, 0) :: hs) = body gs ++ words (printed ((0, 0) :: hs)) := by
  cases gs with
  | nil =>
    rw [words_printed_cons]
    rfl
  | cons g gs => exact body_append (List.cons_ne_nil g gs) _

/-! ## the loop -/

/-- the position behind the groups in front of a zero group -/
def Started (gs : List Group) (k : Nat) : Prop :=
  ∃ j < gs.length, gs.getD j (0, 0) = (0, 0) ∧ k = (body (gs.take j)).length + 1

theorem Started.append {gs : List Group} {k : Nat} (h : Started gs k) (g : Group) :
    Started (gs ++ [g]) k := by
  obtain ⟨j, hj, hz, hk⟩ := h
  refine ⟨j, by rw [List.length_append]; exact Nat.lt_add_right _ hj, ?_, ?_⟩
  · rw [List.getD_append _ _ _ _ hj, hz]
  · rw [List.take_append_of_le_length (Nat.le_of_lt hj), hk]

/-- the locals behind the groups `gs` -/
structure Print.Sound (gs : List Group) (st : Print) : Prop where
  ip : st.ip = 91 :: body gs
  num : 0 < st.numZeros ↔ (0, 0) ∈ gs
  start : 0 < st.numZeros → Started gs st.startZeros
  max_num : 0 < st.maxZerosNum → 0 < st.numZeros
  max : 0 < st.maxZerosNum → Started gs st.maxZerosStart
  none : st.maxZerosNum = 0 → st.maxZerosStart = 0
  last : st.lastZeros + 2 = 2 * gs.length ↔ gs.getLast? = some (0, 0)
  bound : st.lastZeros < 2 * gs.length ∨ st.lastZeros = 16

theorem Print.sound_start : Print.start.Sound [] :=
  ⟨rfl, ⟨fun h => (nomatch h), fun h => nomatch h⟩, fun h => (nomatch h), fun h => h, fun h => (nomatch h),
    fun _ => rfl, ⟨fun h => (nomatch h), fun h => nomatch h⟩, Or.inr rfl⟩

theorem Print.Sound.close {gs : List Group} {st : Print} (h : st.Sound gs) : st.close.Sound gs := by
  unfold Print.close
  split
  · next hlt =>
    have hpos : 0 < st.numZeros := Nat.zero_lt_of_lt hlt
    exact ⟨h.ip, h.num, h.start, fun _ => hpos, fun _ => h.start hpos,
      fun hz => absurd (show st.numZeros = 0 from hz) (Nat.ne_of_gt hpos), h.last, h.bound⟩
  · exact h

theorem Print.Sound.zero {gs : List Group} {st : Print} (h : st.Sound gs) {k : Nat}
    (hk : Started (gs ++ [(0, 0)]) k) (n : Nat) :
    Print.Sound (gs ++ [(0, 0)])
      { st with startZeros := k, lastZeros := 2 * gs.length, numZeros := n + 2 } where
  ip := by
    rw [body_append_zero gs [], show words (printed [((0, 0) : Group)]) = [] from rfl, List.append_nil]
    exact h.ip
  num := ⟨fun _ => List.mem_append_right _ List.mem_cons_self, fun _ => Nat.succ_pos _⟩
  start _ := hk
  max_num _ := Nat.succ_pos _
  max hm := (h.max hm).append _
  none := h.none
  last := by
    rw [List.getLast?_concat, List.length_append]
    exact ⟨fun _ => rfl, fun _ => rfl⟩
  bound := Or.inl (by rw [List.length_append]; exact Nat.lt_add_of_pos_right Nat.two_pos)

theorem Print.Sound.nonzero {gs : List Group} {st : Print} (h : st.Sound gs) {g : Group} (hg : g ≠ (0, 0))
    (hl : gs.length < 8) :
    Print.Sound (gs ++ [g])
      { st with ip := st.ip ++ (if 0 < gs.length then [58] else []) ++ word g } where
  ip := by
    show st.ip ++ _ ++ word g = _
    rw [h.ip]
    cases gs with
    | nil => simp [body, printed, words, hg]
    | cons g' gs =>
      rw [body_append (List.cons_ne_nil g' gs), words_printed_cons, if_neg hg,
        if_pos (show 0 < (g' :: gs).length from Nat.succ_pos _)]
      simp [printed, words]
  num := h.num.trans (by simp [Ne.symm hg])
  start hn := (h.start hn).append _
  max_num := h.max_num
  max hm := (h.max hm).append _
  none := h.none
  last := by
    rw [List.getLast?_concat, List.length_append]
    have hb := h.bound
    refine ⟨fun hc => ?_, fun hc => absurd (Option.some.inj hc) hg⟩
    simp only [List.length_singleton] at hc
    omega
  bound := h.bound.imp_left fun hb => by
    rw [List.length_append]
    exact Nat.lt_add_right _ hb

theorem printGroup_keeps {gs : List Group} {g : Group} {addr : Bytes} {st : Print} (h : st.Sound gs)
    (hl : gs.length < 8)
    (hg : (addr.getD (2 * gs.length) 0, addr.getD (2 * gs.length + 1) 0) = g) :
    (printGroup addr st gs.length).Sound (gs ++ [g]) := by
  obtain ⟨hi, lo⟩ := g
  obtain ⟨h1, h2⟩ := Prod.mk.inj hg
  unfold printGroup
  rw [h1, h2]
  by_cases hz : hi = 0 ∧ lo = 0
  · have he : ((hi, lo) : Group) = (0, 0) := Prod.ext hz.1 hz.2
    rw [he, if_pos hz]
    by_cases hc : st.lastZeros + 2 ≠ 2 * gs.length
    · -- a run begins behind what is printed
      rw [if_pos hc]
      refine h.zero ⟨gs.length, by simp, by simp, ?_⟩ 0
      rw [h.ip, List.take_left]
      rfl
    · -- the group in front was zero too
      rw [if_neg hc]
      have hlast := h.last.mp (not_not.mp hc)
      have hmem : (0, 0) ∈ gs := List.mem_of_getLast? hlast
      exact h.zero ((h.start (h.num.mpr hmem)).append _) st.numZeros
  · rw [if_neg hz]
    have hne : ((hi, lo) : Group) ≠ (0, 0) := fun he => hz (Prod.mk.inj he)
    have hw := h.close.nonzero hne hl
    rw [word, ← List.append_assoc] at hw
    exact hw

theorem sound_fold {gs : List Group} (hl : gs.length ≤ 8) {n : Nat} (hn : n ≤ gs.length) :
    ((List.range n).foldl (printGroup (flat gs)) Print.start).Sound (gs.take n) := by
  induction n with
  | zero => exact Print.sound_start
  | succ n ih =>
    have hlen : (gs.take n).length = n := by
      rw [List.length_take]
      omega
    have hg : gs.getD n (0, 0) = gs[n] := List.getD_eq_getElem _ _ hn
    have hk := printGroup_keeps (g := gs.getD n (0, 0)) (ih (Nat.le_of_succ_le hn))
      (by rw [hlen]; exact Nat.lt_of_lt_of_le hn hl) (by rw [hlen]; exact getD_flat gs n)
    rw [List.range_succ, List.foldl_concat, List.take_succ_eq_append_getElem hn, ← hg]
    rw [hlen] at hk
    exact hk

/-! ## the text -/

/-- where the zeros are last, a colon is printed behind them -/
def ending (gs : List Group) : Bytes := if gs.getLast? = some (0, 0) then [58] else []

/-- what is in front of the bracket when the loop has ended -/
def Print.text (st : Print) : Bytes :=
  let start := if st.numZeros > st.maxZerosNum then st.startZeros else st.maxZerosStart
  let ip := if st.lastZeros = 14 then st.ip ++ [58] else st.ip
  if start ≠ 0 then ip.take (start + 1) ++ ip.drop start else ip

theorem ipv6Text_eq (ep : Endpoint) : ipv6Text ep =
    ((List.range 8).foldl (printGroup ep.address) Print.start).text ++ [93, 58] ++
      Numeral.decimal ep.port.toNat := rfl

theorem Print.Sound.ip_ending {gs : List Group} {st : Print} (h : st.Sound gs) (hl : gs.length = 8) :
    (if st.lastZeros = 14 then st.ip ++ [58] else st.ip) = 91 :: (body gs ++ ending gs) := by
  have hiff : st.lastZeros = 14 ↔ gs.getLast? = some (0, 0) := by
    rw [← h.last, hl]
    omega
  rw [h.ip, ending]
  by_cases hc : st.lastZeros = 14
  · rw [if_pos hc, if_pos (hiff.mp hc)]
    rfl
  · rw [if_neg hc, if_neg (fun he => hc (hiff.mpr he)), List.append_nil]

theorem Print.Sound.text_plain {gs : List Group} {st : Print} (h : st.Sound gs) (hl : gs.length = 8)
    (hz : (0, 0) ∉ gs) : st.text = 91 :: body gs := by
  have hnum : st.numZeros = 0 := Nat.eq_zero_of_not_pos fun hc => hz (h.num.mp hc)
  have hmax : st.maxZerosNum = 0 := Nat.eq_zero_of_not_pos fun hc => Nat.ne_of_gt (h.max_num hc) hnum
  have hend : ending gs = [] := if_neg fun hc => hz (List.mem_of_getLast? hc)
  rw [Print.text, h.ip_ending hl, hnum, hmax, h.none hmax, hend, List.append_nil]
  rfl

/-- behind a zero group there is a colon, of the next group or of the ending -/
theorem words_ending {gs : List Group} {j : Nat} (hj : j < gs.length) :
    ∃ x, words (printed (gs.drop j)) ++ ending gs = 58 :: x := by
  cases hp : printed (gs.drop j) with
  | cons g hs => exact ⟨word g ++ words hs ++ ending gs, by simp [words]⟩
  | nil =>
    have hall : ∀ g ∈ gs.drop j, g = (0, 0) := fun g hg => by
      simpa using List.filter_eq_nil_iff.mp hp g hg
    have hlast : gs.getLast? = some (0, 0) := by
      have hd : (gs.drop j).getLast? = gs.getLast? := by
        rw [List.getLast?_drop, if_neg (Nat.not_le_of_lt hj)]
      cases hg : gs.getLast? with
      | none =>
        rw [List.getLast?_eq_none_iff.mp hg] at hj
        cases hj
      | some g =>
        rw [hg] at hd
        rw [hall g (List.mem_of_getLast? hd)]
    exact ⟨[], by rw [ending, if_pos hlast]; rfl⟩

theorem Print.Sound.text_gap {gs : List Group} {st : Print} (h : st.Sound gs) (hl : gs.length = 8)
    (hz : (0, 0) ∈ gs) : ∃ j < gs.length, gs.getD j (0, 0) = (0, 0) ∧
      st.text = 91 :: (body (gs.take j) ++ 58 :: (words (printed (gs.drop j)) ++ ending gs)) := by
  have hnum := h.num.mpr hz
  have hst : Started gs (if st.numZeros > st.maxZerosNum then st.startZeros else st.maxZerosStart) := by
    split
    · exact h.start hnum
    · next hle => exact h.max (Nat.lt_of_lt_of_le hnum (Nat.le_of_not_lt hle))
  rw [Print.text, h.ip_ending hl]
  obtain ⟨j, hj, he, hk⟩ := hst
  obtain ⟨x, hx⟩ := words_ending hj
  have hcut : body gs = body (gs.take j) ++ words (printed (gs.drop j)) := by
    conv => lhs; rw [← List.take_append_drop j gs]
    rw [List.drop_eq_getElem_cons hj, ← List.getD_eq_getElem gs (0, 0) hj, he]
    exact body_append_zero _ _
  have hip : 91 :: (body gs ++ ending gs) = 91 :: body (gs.take j) ++ 58 :: x := by
    rw [hcut, List.append_assoc, hx]
    rfl
  refine ⟨j, hj, he, ?_⟩
  rw [hk, if_pos (Nat.succ_ne_zero _), hip, hx]
  have hd : (91 :: body (gs.take j) ++ 58 :: x).drop ((body (gs.take j)).length + 1) = 58 :: x := by
    show (91 :: body (gs.take j) ++ 58 :: x).drop (91 :: body (gs.take j)).length = _
    rw [List.drop_left]
  have ht : (91 :: body (gs.take j) ++ 58 :: x).take ((body (gs.take j)).length + 1 + 1) =
      91 :: body (gs.take j) ++ [58] := by
    rw [show 91 :: body (gs.take j) ++ 58 :: x = (91 :: body (gs.take j) ++ [58]) ++ x by simp]
    exact List.take_left' (by simp)
  rw [hd, ht]
  simp

section
variable {gs : List Group} (hl : gs.length = 8) {ep : Endpoint} (ha : ep.address = flat gs)
include hl ha

theorem sound_printed : ((List.range 8).foldl (printGroup ep.address) Print.start).Sound gs := by
  have hs := sound_fold (Nat.le_of_eq hl) (Nat.le_of_eq hl.symm)
  rw [List.take_of_length_le (Nat.le_of_eq hl)] at hs
  rw [ha]
  exact hs

theorem ipv6Text_plain (h : (0, 0) ∉ gs) :
    ipv6Text ep = 91 :: body gs ++ [93, 58] ++ Numeral.decimal ep.port.toNat := by
  rw [ipv6Text_eq, (sound_printed hl ha).text_plain hl h]

theorem ipv6Text_gap (h : (0, 0) ∈ gs) : ∃ j < gs.length, gs.getD j (0, 0) = (0, 0) ∧
    ipv6Text ep = 91 :: (body (gs.take j) ++ 58 :: (words (printed (gs.drop j)) ++ ending gs)) ++
      [93, 58] ++ Numeral.decimal ep.port.toNat := by
  obtain ⟨j, hj, he, ht⟩ := (sound_printed hl ha).text_gap hl h
  exact ⟨j, hj, he, by rw [ipv6Text_eq, ht]⟩

end

end EndpointString
