import Iotivity.Endpoint.Printing

/-!
# Reading a printed IPv6 address

The loop of `oc_parse_ipv6_address` takes the words of the groups in front of `::` and those behind it,
and the loop behind it opens the gap.

* `Runs`           the loop gets from one state to another, for all that is behind the brackets;
* `parse_plain`    a text without a gap is read as its groups;
* `parse_gap`      a text with a gap is read as the printed groups around zeros.
-/

namespace EndpointString
open Security Coap

/-! ## runs of the loop -/

/-- the loop gets from one state to another, whatever is behind the brackets -/
def Runs (t : Bytes) (st st' : Parse) : Prop :=
  ∃ n, ∀ fuel more, ipv6Loop (inBrackets t more) t.length (fuel + n) st =
    ipv6Loop (inBrackets t more) t.length fuel st'

theorem Runs.refl (t : Bytes) (st : Parse) : Runs t st st := ⟨0, fun _ _ => rfl⟩

theorem Runs.trans {t : Bytes} {st₁ st₂ st₃ : Parse} (h : Runs t st₁ st₂) (h' : Runs t st₂ st₃) :
    Runs t st₁ st₃ := by
  obtain ⟨n, hn⟩ := h
  obtain ⟨m, hm⟩ := h'
  exact ⟨m + n, fun fuel more => by rw [← Nat.add_assoc, hn, hm]⟩

theorem runs_next {t : Bytes} {st : Parse} (hs : st.Sound) (h : st.addrIdx < 15 ∧ st.strIdx < t.length) :
    Runs t st (st.next t) :=
  ⟨1, fun fuel _ => ipv6Loop_succ hs h fuel⟩

/-- more fuel changes nothing -/
theorem ipv6Loop_mono {text : Bytes} {len fuel : Nat} {st st' : Parse}
    (h : ipv6Loop text len fuel st = .ok st') (n : Nat) : ipv6Loop text len (fuel + n) st = .ok st' := by
  induction fuel generalizing st with
  | zero =>
    by_cases hg : st.addrIdx < 15 ∧ st.strIdx < len
    · rw [ipv6Loop_zero hg] at h
      cases h
    · rw [ipv6Loop_stop hg] at h ⊢
      exact h
  | succ fuel ih =>
    by_cases hg : st.addrIdx < 15 ∧ st.strIdx < len
    · rw [Nat.add_right_comm]
      unfold ipv6Loop at h ⊢
      rw [if_pos hg] at h ⊢
      show (st.step text len >>= _) = _
      change (st.step text len >>= _) = _ at h
      cases hst : st.step text len with
      | error e =>
        rw [hst] at h
        cases h
      | ok s =>
        rw [hst] at h
        exact ih h
    · rw [ipv6Loop_stop hg] at h ⊢
      exact h

/-- where a run stops is where every run with enough fuel stops -/
theorem Runs.result {t : Bytes} {st st' : Parse} (h : Runs t st st')
    (hstop : ¬ (st'.addrIdx < 15 ∧ st'.strIdx < t.length)) (more : Bytes) :
    (∃ fuel, ipv6Loop (inBrackets t more) t.length fuel st = .ok st') ∧
      ∀ fuel s, ipv6Loop (inBrackets t more) t.length fuel st = .ok s → s = st' := by
  obtain ⟨n, hn⟩ := h
  refine ⟨⟨0 + n, by rw [hn, ipv6Loop_stop hstop]⟩, fun fuel s hs => ?_⟩
  have hm := ipv6Loop_mono hs n
  rw [hn, ipv6Loop_stop hstop] at hm
  exact (Except.ok.inj hm).symm

/-! ## the parse of groups -/

/-- the locals with the groups that have been read and the position -/
def filled (gs : List Group) (split : Option Nat) (i : Nat) : Parse :=
  ⟨i, 2 * gs.length, split, flat gs ++ List.replicate (16 - 2 * gs.length) 0⟩

theorem sound_filled (gs : List Group) (split : Option Nat) (i : Nat) (hl : gs.length ≤ 8)
    (hs : ∀ k, split = some k → k ≤ 2 * gs.length) : (filled gs split i).Sound := by
  refine ⟨?_, Nat.mul_mod_right 2 _, Nat.mul_le_mul_left 2 hl, hs⟩
  show (flat gs ++ List.replicate _ 0).length = 16
  rw [List.length_append, length_flat, List.length_replicate]
  omega

theorem set_group (gs : List Group) (g : Group) (z : Bytes) :
    ((flat gs ++ 0 :: 0 :: z).set (2 * gs.length) g.1).set (2 * gs.length + 1) g.2 =
      flat (gs ++ [g]) ++ z := by
  rw [← length_flat, set_length, show flat gs ++ g.1 :: 0 :: z = (flat gs ++ [g.1]) ++ 0 :: z by simp,
    show (flat gs).length + 1 = (flat gs ++ [g.1]).length by simp, set_length, flat_append]
  simp [flat]

theorem took_filled {gs : List Group} {split : Option Nat} {i : Nat} (hl : gs.length < 8) {g : Group}
    (hg : g ≠ (0, 0)) :
    (filled gs split i).took (word g) = filled (gs ++ [g]) split (i + (word g).length) := by
  have hz : 16 - 2 * gs.length = (16 - 2 * (gs ++ [g]).length) + 1 + 1 := by
    rw [List.length_append, List.length_singleton]
    omega
  have hlen : 2 * gs.length + 2 = 2 * (gs ++ [g]).length := by
    rw [List.length_append, Nat.mul_add]
    rfl
  have haddr : ((flat gs ++ List.replicate (16 - 2 * gs.length) 0).set (2 * gs.length) g.1).set
      (2 * gs.length + 1) g.2 = flat (gs ++ [g]) ++ List.replicate (16 - 2 * (gs ++ [g]).length) 0 := by
    rw [hz, List.replicate_succ, List.replicate_succ, set_group]
  rw [Parse.took, segGroup_word hg]
  show Parse.mk _ (2 * gs.length + 2) split (List.set (List.set _ _ _) _ _) = _
  rw [hlen]
  exact congrArg (Parse.mk (i + (word g).length) _ split) haddr

section
variable {t : Bytes} {gs : List Group} {split : Option Nat} {i : Nat}

/-- what can follow a word -/
def AtColon (r : Bytes) : Prop := ∀ c, r.head? = some c → c = 58

theorem takeWhile_word {g : Group} (hg : g ≠ (0, 0)) {r : Bytes} (hr : AtColon r) :
    (word g ++ r).takeWhile (· ≠ 58) = word g := by
  have hw : ∀ c ∈ word g, decide (c ≠ 58) = true := fun c hc => decide_eq_true fun he =>
    colon_not_mem_word hg (he ▸ hc)
  rw [List.takeWhile_append_of_pos hw]
  cases r with
  | nil => rw [List.takeWhile_nil, List.append_nil]
  | cons c r =>
    rw [hr c rfl, List.takeWhile_cons_of_neg (by simp), List.append_nil]

theorem skip_eq_self {st : Parse} (h : ¬ (st.split = none ∧ [58, 58] <+: t.drop st.strIdx)) :
    st.skip t = st := if_neg h

theorem next_word {g : Group} (hg : g ≠ (0, 0)) {r : Bytes} (hr : AtColon r) (hl : gs.length < 8)
    (ht : t.drop i = word g ++ r) :
    (filled gs split i).next t = filled (gs ++ [g]) split (i + (word g).length) := by
  have hskip : (filled gs split i).skip t = filled gs split i := by
    refine skip_eq_self fun hc => ?_
    obtain ⟨c, w, hw⟩ := List.exists_cons_of_ne_nil (word_ne_nil hg)
    have hp : [58, 58] <+: word g ++ r := ht ▸ hc.2
    rw [hw] at hp
    have hm := colon_not_mem_word hg
    rw [hw, (List.cons_prefix_cons.mp hp).1] at hm
    exact hm List.mem_cons_self
  rw [Parse.next, hskip]
  show (filled gs split i).took ((t.drop i).takeWhile _) = _
  rw [ht, takeWhile_word hg hr, took_filled hl hg]

theorem next_colon {r : Bytes} (ht : t.drop i = 58 :: r) (h : split ≠ none ∨ r.head? ≠ some 58) :
    (filled gs split i).next t = filled gs split (i + 1) := by
  have hskip : (filled gs split i).skip t = filled gs split i := by
    refine skip_eq_self fun hc => ?_
    have hp : [58, 58] <+: 58 :: r := ht ▸ hc.2
    rcases h with hs | hr
    · exact hs hc.1
    · obtain ⟨x, hx⟩ := (List.cons_prefix_cons.mp hp).2
      exact hr (by rw [← hx]; rfl)
  rw [Parse.next, hskip]
  show (filled gs split i).took ((t.drop i).takeWhile _) = _
  rw [ht, List.takeWhile_cons_of_neg (by simp)]
  rfl

theorem skip_double {r : Bytes} (ht : t.drop i = 58 :: 58 :: r) :
    (filled gs none i).skip t = filled gs (some (2 * gs.length)) (i + 2) :=
  if_pos ⟨rfl, r, ht.symm⟩

theorem lt_of_drop {c : UInt8} {x : Bytes} (h : t.drop i = c :: x) : i < t.length := by
  by_contra hge
  rw [List.drop_of_length_le (Nat.le_of_not_lt hge)] at h
  cases h

theorem atColon_words {r : Bytes} (hr : AtColon r) (hs : List Group) : AtColon (words hs ++ r) := by
  cases hs with
  | nil => exact hr
  | cons h hs => exact fun c hc => (Option.some.inj hc).symm

theorem not_colon_word {g : Group} (hg : g ≠ (0, 0)) (r : Bytes) : (word g ++ r).head? ≠ some 58 := by
  obtain ⟨c, w, hw⟩ := List.exists_cons_of_ne_nil (word_ne_nil hg)
  have hm := colon_not_mem_word hg
  rw [hw] at hm ⊢
  intro hc
  rw [Option.some.inj hc] at hm
  exact hm List.mem_cons_self

theorem runs_words (gs : List Group) (split : Option Nat) {hs : List Group} (hne : ∀ g ∈ hs, g ≠ (0, 0)) {r : Bytes} (hr : AtColon r)
    (hl : gs.length + hs.length ≤ 8) (hsp : ∀ k, split = some k → k ≤ 2 * gs.length)
    (ht : t.drop i = words hs ++ r) :
    Runs t (filled gs split i) (filled (gs ++ hs) split (i + (words hs).length)) := by
  induction hs generalizing gs i with
  | nil =>
    rw [List.append_nil]
    exact Runs.refl t _
  | cons h hs ih =>
    have hh := hne h List.mem_cons_self
    have ht0 : t.drop i = 58 :: (word h ++ (words hs ++ r)) := by
      rw [ht]
      simp [words]
    have ht1 : t.drop (i + 1) = word h ++ (words hs ++ r) := drop_succ_of_drop ht0
    have ht2 : t.drop (i + 1 + (word h).length) = words hs ++ r := by
      rw [← List.drop_drop, ht1, List.drop_left]
    have hlt : gs.length < 8 := by
      rw [List.length_cons] at hl
      omega
    have hpos : i + 1 < t.length := by
      obtain ⟨c, w, hw⟩ := List.exists_cons_of_ne_nil (word_ne_nil hh)
      exact lt_of_drop (ht1.trans (by rw [hw]; rfl))
    have h15 : 2 * gs.length < 15 := by omega
    have hcolon := runs_next (sound_filled gs split i (Nat.le_of_lt hlt) hsp) ⟨h15, Nat.lt_of_succ_lt hpos⟩
    rw [next_colon ht0 (Or.inr (not_colon_word hh _))] at hcolon
    have hword := runs_next (sound_filled gs split (i + 1) (Nat.le_of_lt hlt) hsp) ⟨h15, hpos⟩
    rw [next_word hh (atColon_words hr hs) hlt ht1] at hword
    have hrest := ih (gs ++ [h]) (fun g hg => hne g (List.mem_cons_of_mem _ hg))
      (by rw [List.length_append]; simpa [Nat.add_assoc, Nat.add_comm 1] using hl)
      (fun k hk => (hsp k hk).trans (by simp)) ht2
    rw [List.append_assoc] at hrest
    have hlen : i + 1 + (word h).length + (words hs).length = i + (words (h :: hs)).length := by
      simp [words]
      omega
    rw [hlen] at hrest
    exact (hcolon.trans hword).trans hrest

end

theorem length_printed (gs : List Group) : (printed gs).length ≤ gs.length := List.length_filter_le _ _

/-- the groups in front of the gap -/
theorem runs_body {t r : Bytes} {gs : List Group} (hr : AtColon r) (hl : gs.length ≤ 8)
    (ht : t = body gs ++ r) :
    Runs t Parse.start (filled (printed gs) none (body gs).length) := by
  cases gs with
  | nil => exact Runs.refl t _
  | cons g gs =>
    have hne : ∀ h ∈ printed gs, h ≠ (0, 0) := fun h hh => printed_ne hh
    have hlp := length_printed gs
    rw [List.length_cons] at hl
    by_cases hg : g = (0, 0)
    · have hb : body (g :: gs) = words (printed gs) := by rw [body, if_pos hg, List.nil_append]
      have hp : printed (g :: gs) = printed gs := List.filter_cons_of_neg (by simpa using hg)
      have ht0 : t.drop 0 = words (printed gs) ++ r := by rw [List.drop_zero, ht, hb]
      have hrun := runs_words [] none hne hr (by simp; omega) (fun k hk => absurd hk.symm (Option.some_ne_none k)) ht0
      rw [List.nil_append, Nat.zero_add] at hrun
      rw [hb, hp]
      exact hrun
    · have hb : body (g :: gs) = word g ++ words (printed gs) := by rw [body, if_neg hg]
      have hp : printed (g :: gs) = g :: printed gs := List.filter_cons_of_pos (by simpa using hg)
      have ht0 : t.drop 0 = word g ++ (words (printed gs) ++ r) := by
        rw [List.drop_zero, ht, hb, List.append_assoc]
      have hpos : 0 < t.length := by
        obtain ⟨c, w, hw⟩ := List.exists_cons_of_ne_nil (word_ne_nil hg)
        exact lt_of_drop (ht0.trans (by rw [hw]; rfl))
      have hword := runs_next (sound_filled [] none 0 (Nat.zero_le _)
        fun k hk => absurd hk.symm (Option.some_ne_none k)) ⟨by decide, hpos⟩
      rw [next_word hg (atColon_words hr _) (by decide) ht0, Nat.zero_add] at hword
      have hrest := runs_words [g] none hne hr (by simp; omega)
        (fun k hk => absurd hk.symm (Option.some_ne_none k)) (show t.drop (word g).length = _ by
          rw [← Nat.zero_add (word g).length, ← List.drop_drop, ht0, List.drop_left])
      rw [hb, hp, List.length_append]
      exact hword.trans hrest

/-- behind the gap: the words there, or the end of the text -/
theorem runs_gap {t x : Bytes} {front hs : List Group} (hne : ∀ g ∈ hs, g ≠ (0, 0))
    (hl : (printed front).length + hs.length < 8) (hf : front.length ≤ 8) {e : Bytes}
    (he : e = [] ∨ e = [58]) (hx : words hs ++ e = 58 :: x) (ht : t = body front ++ 58 :: 58 :: x) :
    ∃ i, Runs t Parse.start (filled (printed front ++ hs) (some (2 * (printed front).length)) i) ∧
      t.length ≤ i := by
  have hd : t.drop (body front).length = 58 :: 58 :: x := by rw [ht, List.drop_left]
  have hd2 : t.drop ((body front).length + 2) = x := drop_succ_of_drop (drop_succ_of_drop hd)
  have hlen : t.length = (body front).length + 2 + x.length := by
    rw [ht, List.length_append]
    simp [Nat.add_assoc, Nat.add_comm 2]
  have hat : AtColon (58 :: 58 :: x) := fun c hc => (Option.some.inj hc).symm
  have hfront := runs_body hat hf ht
  have hsp : ∀ k, some (2 * (printed front).length) = some k → k ≤ 2 * (printed front).length :=
    fun k hk => Nat.le_of_eq (Option.some.inj hk).symm
  have hgap := runs_next (sound_filled (printed front) none (body front).length
    (by omega) fun k hk => absurd hk.symm (Option.some_ne_none k)) ⟨show 2 * (printed front).length < 15 by omega, lt_of_drop hd⟩
  rw [Parse.next, skip_double hd] at hgap
  have hseg : (filled (printed front) (some (2 * (printed front).length)) ((body front).length + 2)).seg t =
      x.takeWhile (· ≠ 58) := by
    rw [← hd2]
    rfl
  rw [hseg] at hgap
  cases hs with
  | nil =>
    have hx0 : x = [] := by
      rcases he with rfl | rfl
      · cases hx
      · exact (List.cons.inj hx).2.symm
    rw [hx0] at hgap hlen
    rw [List.append_nil]
    exact ⟨_, hfront.trans hgap, by rw [hlen]; exact Nat.le_succ _⟩
  | cons h hs =>
    have hh := hne h List.mem_cons_self
    have hae : AtColon e := by
      rcases he with rfl | rfl
      · exact fun c hc => absurd hc.symm (Option.some_ne_none c)
      · exact fun c hc => (Option.some.inj hc).symm
    have hx1 : x = word h ++ (words hs ++ e) := by
      have hw : words (h :: hs) ++ e = 58 :: (word h ++ (words hs ++ e)) := by simp [words]
      exact (List.cons.inj (hx.symm.trans hw)).2
    rw [List.length_cons] at hl
    rw [hx1, takeWhile_word hh (atColon_words hae hs), took_filled (by omega) hh] at hgap
    have hd3 : t.drop ((body front).length + 2 + (word h).length) = words hs ++ e := by
      rw [← List.drop_drop, hd2, hx1, List.drop_left]
    have hsp' : ∀ k, some (2 * (printed front).length) = some k → k ≤ 2 * (printed front ++ [h]).length :=
      fun k hk => (hsp k hk).trans (by simp)
    have hrest := runs_words (printed front ++ [h]) _ (fun g hg => hne g (List.mem_cons_of_mem _ hg)) hae
      (by rw [List.length_append, List.length_singleton]; omega) hsp' hd3
    rw [List.append_assoc] at hrest
    have hall := (hfront.trans hgap).trans hrest
    have hlen' : t.length = (body front).length + 2 + (word h).length + (words hs).length + e.length := by
      rw [hlen, hx1, List.length_append, List.length_append, ← Nat.add_assoc, ← Nat.add_assoc]
    rcases he with rfl | rfl
    · exact ⟨_, hall, Nat.le_of_eq hlen'⟩
    · -- the colon behind the last word
      have hd4 : t.drop ((body front).length + 2 + (word h).length + (words hs).length) = [58] := by
        rw [← List.drop_drop, hd3, List.drop_left]
      have hlast := runs_next (sound_filled (printed front ++ h :: hs) _ _ (by simp; omega)
        (fun k hk => (hsp k hk).trans (by simp))) ⟨show 2 * (printed front ++ h :: hs).length < 15 by
          rw [List.length_append, List.length_cons]; omega, lt_of_drop hd4⟩
      rw [next_colon hd4 (Or.inl (Option.some_ne_none _))] at hlast
      exact ⟨_, hall.trans hlast, Nat.le_of_eq hlen'⟩

/-! ## the address that is read -/

/-- the parse of an address whose loop stops in a state -/
theorem parse_result {t : Bytes} {st : Parse} {a : Bytes} (h : Runs t Parse.start st)
    (hstop : ¬ (st.addrIdx < 15 ∧ st.strIdx < t.length))
    (ha : (match st.split with
      | none => .ok st.addr
      | some split => shiftTail split st.addrIdx 15 st.addr) = (.ok a : Checked Bytes)) (more : Bytes) :
    (∃ fuel, ocParseIpv6Address fuel (inBrackets t more) t.length = .ok a) ∧
      ∀ fuel a', ocParseIpv6Address fuel (inBrackets t more) t.length = .ok a' → a' = a := by
  obtain ⟨⟨fuel, hf⟩, hall⟩ := h.result hstop more
  have heq : ∀ fuel, ipv6Loop (inBrackets t more) t.length fuel Parse.start = .ok st →
      ocParseIpv6Address fuel (inBrackets t more) t.length = .ok a := fun fuel hf => by
    show (ipv6Loop (inBrackets t more) t.length fuel Parse.start >>= _) = _
    rw [hf]
    exact ha
  refine ⟨⟨fuel, heq fuel hf⟩, fun fuel a' hf' => ?_⟩
  rcases parseIpv6_cases t more fuel with ⟨-, hr⟩ | ⟨s, b, hs, hb⟩
  · rw [hr] at hf'
    cases hf'
  · rw [hall fuel s hs] at hs
    exact Except.ok.inj (hf'.symm.trans (heq fuel hs))

theorem parse_plain {gs : List Group} (hl : gs.length = 8) (hz : (0, 0) ∉ gs) (more : Bytes) :
    (∃ fuel, ocParseIpv6Address fuel (inBrackets (body gs) more) (body gs).length = .ok (flat gs)) ∧
      ∀ fuel a, ocParseIpv6Address fuel (inBrackets (body gs) more) (body gs).length = .ok a →
        a = flat gs := by
  have hp : printed gs = gs := List.filter_eq_self.mpr fun g hg =>
    decide_eq_true fun he => hz (he ▸ hg)
  have hrun := runs_body (t := body gs) (r := []) (fun c hc => absurd hc.symm (Option.some_ne_none c)) (Nat.le_of_eq hl)
    (List.append_nil _).symm
  rw [hp] at hrun
  refine parse_result hrun (fun hc => absurd hc.1 ?_) ?_ more
  · show ¬ 2 * gs.length < 15
    omega
  · show Except.ok (flat gs ++ List.replicate (16 - 2 * gs.length) 0) = _
    rw [hl]
    exact congrArg Except.ok (List.append_nil _)

theorem parse_gap {t x : Bytes} {front hs : List Group} (hne : ∀ g ∈ hs, g ≠ (0, 0))
    (hl : (printed front).length + hs.length < 8) (hf : front.length ≤ 8) {e : Bytes}
    (he : e = [] ∨ e = [58]) (hx : words hs ++ e = 58 :: x) (ht : t = body front ++ 58 :: 58 :: x)
    (more : Bytes) :
    (∃ fuel, ocParseIpv6Address fuel (inBrackets t more) t.length = .ok (flat (printed front ++
        List.replicate (8 - (printed front).length - hs.length) (0, 0) ++ hs))) ∧
      ∀ fuel a, ocParseIpv6Address fuel (inBrackets t more) t.length = .ok a →
        a = flat (printed front ++
          List.replicate (8 - (printed front).length - hs.length) (0, 0) ++ hs) := by
  obtain ⟨i, hrun, hi⟩ := runs_gap hne hl hf he hx ht
  refine parse_result hrun (fun hc => Nat.not_le_of_lt hc.2 hi) ?_ more
  show shiftTail (2 * (printed front).length) (2 * (printed front ++ hs).length) 15
    (flat (printed front ++ hs) ++ List.replicate (16 - 2 * (printed front ++ hs).length) 0) = _
  have hshift := shiftTail_eq (flat (printed front)) (flat hs) []
    (show 0 < 16 - 2 * (printed front ++ hs).length by rw [List.length_append]; omega)
  rw [length_flat, length_flat, ← Nat.mul_add, ← List.length_append, List.append_nil, List.append_nil,
    ← flat_append] at hshift
  rw [show 2 * (printed front ++ hs).length + (16 - 2 * (printed front ++ hs).length) - 1 = 15 by
    rw [List.length_append]; omega] at hshift
  rw [hshift, flat_append, flat_append, flat_replicate]
  congr 4
  rw [List.length_append]
  omega

end EndpointString
