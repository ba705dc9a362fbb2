import Mathlib.Data.List.Basic

/-!
# Cutting a list at a separator

A cutter that skips the element behind every separator, and a merger that takes an empty list for
one that has not been started.

* `cut`       the pieces of a list, and whether its last element was taken for a separator: then there
              is no piece behind it;
* `merge`     a piece joined to what there is;
* `glue_cut`  the pieces with separators between them are the list, without that last separator;
* `cut_flag`  the last element is a separator that counts if the list ends with an odd number of them;
* `merge_cut_iff`   which lists come back.
-/

namespace Cut

/-! ## merging -/

section
variable {α : Type} (c : α)

def merge (dst v : List α) : List α := if 0 < dst.length then dst ++ c :: v else v

/-- pieces with separators between them -/
def glue : List (List α) → List α
  | [] => []
  | p :: ps => p ++ ps.flatMap (c :: ·)

theorem foldl_merge {dst : List α} (hd : dst ≠ []) (ps : List (List α)) :
    ps.foldl (merge c) dst = dst ++ ps.flatMap (c :: ·) := by
  induction ps generalizing dst with
  | nil => simp
  | cons p ps ih =>
    have hm : merge c dst p = dst ++ c :: p := by
      unfold merge
      rw [if_pos (List.length_pos_iff.mpr hd)]
    rw [List.foldl_cons, hm, ih (by simp), List.flatMap_cons, List.append_assoc]

theorem foldl_merge_cons {p : List α} (hp : p ≠ []) (ps : List (List α)) :
    (p :: ps).foldl (merge c) [] = glue c (p :: ps) := foldl_merge c hp ps

/-- pieces that are not empty -/
theorem foldl_merge_of_ne {ps : List (List α)} (h : ∀ p ∈ ps, p ≠ []) :
    ps.foldl (merge c) [] = glue c ps := by
  cases ps with
  | nil => rfl
  | cons p ps => exact foldl_merge_cons c (h p List.mem_cons_self) ps

theorem glue_append {ps : List (List α)} (hp : ps ≠ []) (qs : List (List α)) :
    glue c (ps ++ qs) = glue c ps ++ qs.flatMap (c :: ·) := by
  obtain ⟨p, ps, rfl⟩ := List.exists_cons_of_ne_nil hp
  simp [glue]

theorem glue_cons_ne {ps : List (List α)} (hp : ps ≠ []) (acc : List α) :
    glue c (acc :: ps) = acc ++ c :: glue c ps := by
  obtain ⟨p, ps, rfl⟩ := List.exists_cons_of_ne_nil hp
  simp [glue]

end

/-! ## cutting -/

section
variable {α : Type} [DecidableEq α] (c : α)

/-- `acc` is the piece so far -/
def cut : List α → List α → List (List α) × Bool
  | acc, [] => ([acc], false)
  | acc, [x] => if x = c then ([acc], true) else ([acc ++ [x]], false)
  | acc, x :: y :: t =>
    if x = c then (acc :: (cut [y] t).1, (cut [y] t).2) else cut (acc ++ [x]) (y :: t)

/-- how many separators the list ends with -/
def trailing (s : List α) : Nat := (s.reverse.takeWhile (· = c)).length

/-- there is a first piece; those behind it are not empty -/
theorem cut_shape (acc t : List α) : ∃ p ps, (cut c acc t).1 = p :: ps ∧ (∀ q ∈ ps, q ≠ []) ∧
    (p = [] ↔ acc = [] ∧ (t = [] ∨ t.head? = some c)) := by
  fun_induction cut c acc t with
  | case1 acc => exact ⟨acc, [], rfl, by simp, by simp⟩
  | case2 acc => exact ⟨acc, [], rfl, by simp, by simp⟩
  | case3 acc x h => exact ⟨acc ++ [x], [], rfl, by simp, by simp [h]⟩
  | case4 acc y t ih =>
    obtain ⟨p, ps, h1, h2, h3⟩ := ih
    have hp : p ≠ [] := fun hp => by simp [hp] at h3
    refine ⟨acc, p :: ps, by rw [h1], ?_, by simp⟩
    intro q hq
    rcases List.mem_cons.mp hq with rfl | hq
    · exact hp
    · exact h2 q hq
  | case5 acc x y t h ih =>
    obtain ⟨p, ps, h1, h2, h3⟩ := ih
    exact ⟨p, ps, h1, h2, by simp [h3, h]⟩

theorem cut_ne_nil (acc t : List α) : (cut c acc t).1 ≠ [] := by
  obtain ⟨p, ps, h, _⟩ := cut_shape c acc t
  rw [h]
  exact List.cons_ne_nil _ _

/-- the pieces, glued, are the list; a separator at its end that counts is lost -/
theorem glue_cut (acc t : List α) :
    acc ++ t = glue c (cut c acc t).1 ++ if (cut c acc t).2 then [c] else [] := by
  fun_induction cut c acc t with
  | case1 acc => simp [glue]
  | case2 acc => simp [glue]
  | case3 acc x h => simp [glue]
  | case4 acc y t ih =>
    rw [glue_cons_ne c (cut_ne_nil c [y] t), List.append_assoc, List.cons_append, ← ih,
      List.singleton_append]
  | case5 acc x y t h ih => rw [← ih, List.append_assoc, List.singleton_append]

/-- a separator within a piece is its first element -/
theorem cut_free (acc t : List α) (hacc : c ∉ acc.tail) :
    ∀ p ∈ (cut c acc t).1, c ∉ p.tail := by
  have hsnoc : ∀ (acc : List α) (x : α), c ∉ acc.tail → x ≠ c → c ∉ (acc ++ [x]).tail := by
    intro acc x hacc hx
    cases acc with
    | nil => exact List.not_mem_nil
    | cons a acc => simpa [Ne.symm hx] using hacc
  fun_induction cut c acc t with
  | case1 acc =>
    intro p hp
    rw [List.mem_singleton.mp hp]
    exact hacc
  | case2 acc =>
    intro p hp
    rw [List.mem_singleton.mp hp]
    exact hacc
  | case3 acc x h =>
    intro p hp
    rw [List.mem_singleton.mp hp]
    exact hsnoc acc x hacc h
  | case4 acc y t ih =>
    intro p hp
    rcases List.mem_cons.mp hp with rfl | hp
    · exact hacc
    · exact ih List.not_mem_nil p hp
  | case5 acc x y t h ih => exact ih (hsnoc acc x hacc h)

theorem trailing_cons (x : α) (t : List α) : trailing c (x :: t) =
    if trailing c t = t.length ∧ x = c then t.length + 1 else trailing c t := by
  unfold trailing
  rw [List.reverse_cons, List.takeWhile_append, List.length_reverse]
  by_cases h : (t.reverse.takeWhile (· = c)).length = t.length
  · rw [if_pos h]
    by_cases hx : x = c
    · rw [if_pos ⟨h, hx⟩]
      simp [hx]
    · rw [if_neg (fun hc => hx hc.2), h]
      simp [hx]
  · rw [if_neg h, if_neg (fun hc => h hc.1)]

theorem trailing_le (t : List α) : trailing c t ≤ t.length := by
  unfold trailing
  have h : (t.reverse.takeWhile (· = c)).length ≤ t.reverse.length :=
    (List.takeWhile_sublist _).length_le
  rwa [List.length_reverse] at h

theorem trailing_eq_zero {t : List α} (h : t.getLast? ≠ some c) : trailing c t = 0 := by
  unfold trailing
  rw [← List.head?_reverse] at h
  cases hr : t.reverse with
  | nil => rfl
  | cons x l =>
    rw [hr, List.head?_cons] at h
    rw [List.takeWhile_cons_of_neg (by simpa using h), List.length_nil]

/-- the last element counts as a separator if the list ends with an odd number of them -/
theorem cut_flag (acc t : List α) : (cut c acc t).2 = true ↔ trailing c t % 2 = 1 := by
  fun_induction cut c acc t with
  | case1 acc => simp [trailing]
  | case2 acc => simp [trailing]
  | case3 acc x h => simp [trailing, h]
  | case4 acc y t ih =>
    rw [ih, trailing_cons c c, trailing_cons c y]
    have hle := trailing_le c t
    by_cases h1 : trailing c t = t.length
    · by_cases hy : y = c
      · rw [if_pos (show trailing c t = t.length ∧ y = c from ⟨h1, hy⟩),
          if_pos ⟨by rw [List.length_cons], rfl⟩, h1, List.length_cons]
        omega
      · rw [if_neg (show ¬ (trailing c t = t.length ∧ y = c) from fun h => hy h.2),
          if_neg (by rw [List.length_cons]; omega)]
    · rw [if_neg (show ¬ (trailing c t = t.length ∧ y = c) from fun h => h1 h.1),
        if_neg (by rw [List.length_cons]; omega)]
  | case5 acc x y t h ih => rw [ih, trailing_cons c x, if_neg (fun hc => h hc.2)]

/-! ## lists that come back -/

/-- a list that starts with a separator loses it -/
theorem merge_cut_head {s : List α} (hhead : s.head? = some c) {stray : List (List α)}
    (hstray : stray = [] ∨ ∃ x, x ≠ c ∧ stray = [[x]]) :
    ((cut c [] s).1 ++ if (cut c [] s).2 then stray else []).foldl (merge c) [] ≠ s := by
  have hs := glue_cut c [] s
  obtain ⟨p, ps, hc, hne, hp⟩ := cut_shape c [] s
  obtain rfl : p = [] := hp.mpr ⟨rfl, Or.inr hhead⟩
  rw [hc, List.nil_append] at hs
  rw [hc]
  generalize (cut c [] s).2 = flag at hs ⊢
  intro h
  rw [List.cons_append, List.foldl_cons] at h
  change (ps ++ if flag then stray else []).foldl (merge c) [] = s at h
  have hall : ∀ q ∈ ps ++ (if flag then stray else []), q ≠ [] := by
    intro q hq
    rcases List.mem_append.mp hq with hq | hq
    · exact hne q hq
    · rcases hstray with rfl | ⟨x, _, rfl⟩
      · simp at hq
      · split at hq
        · rw [List.mem_singleton.mp hq]
          exact List.cons_ne_nil _ _
        · cases hq
  rw [foldl_merge_of_ne c hall] at h
  by_cases hps : ps = []
  · -- the separator is all there is
    subst hps
    cases flag with
    | false =>
      rw [hs] at hhead
      cases hhead
    | true =>
      rcases hstray with rfl | ⟨x, hx, rfl⟩
      · rw [hs] at h
        cases h
      · rw [hs] at h
        simp [glue] at h
        exact hx h
  · rw [glue_cons_ne c hps, List.nil_append] at hs
    rw [glue_append c hps] at h
    cases flag with
    | false =>
      have hlen := congrArg List.length (h.trans hs)
      simp at hlen
    | true =>
      rcases hstray with rfl | ⟨x, hx, rfl⟩
      · have hlen := congrArg List.length (h.trans hs)
        simp at hlen
        omega
      · -- both end at the same place, with a separator in the list and none in the other
        have h : (glue c ps ++ [c]) ++ [x] = (c :: glue c ps) ++ [c] := by simpa using h.trans hs
        exact hx (List.cons.inj (List.append_inj' h rfl).2).1

/-- what the merger makes of the pieces, and of a stray one behind a last separator that counts -/
theorem merge_cut_iff (s : List α) {stray : List (List α)}
    (hstray : stray = [] ∨ ∃ x, x ≠ c ∧ stray = [[x]]) :
    ((cut c [] s).1 ++ if (cut c [] s).2 then stray else []).foldl (merge c) [] = s ↔
      s.head? ≠ some c ∧ trailing c s % 2 = 0 := by
  rcases eq_or_ne s [] with rfl | hnil
  · exact iff_of_true rfl ⟨by simp, rfl⟩
  by_cases hhead : s.head? = some c
  · exact iff_of_false (merge_cut_head c hhead hstray) fun h => h.1 hhead
  have hs := glue_cut c [] s
  have hflag := cut_flag c [] s
  obtain ⟨p, ps, hc, hne, hp⟩ := cut_shape c [] s
  rw [hc, List.nil_append] at hs
  rw [hc]
  generalize (cut c [] s).2 = flag at hs hflag ⊢
  have hp : p ≠ [] := fun h => by
    rcases (hp.mp h).2 with h | h
    · exact hnil h
    · exact hhead h
  rw [List.cons_append, foldl_merge_cons c hp, ← List.cons_append,
    glue_append c (List.cons_ne_nil p ps)]
  cases flag with
  | false =>
    refine iff_of_true ?_ ⟨hhead, ?_⟩
    · simpa using hs.symm
    · have : ¬ trailing c s % 2 = 1 := fun h => Bool.false_ne_true (hflag.mpr h)
      omega
  | true =>
    refine iff_of_false ?_ fun h => ?_
    · intro h
      have hlen := congrArg List.length (h.trans hs)
      rcases hstray with rfl | ⟨x, _, rfl⟩
      · simp at hlen
      · simp at hlen
    · have := hflag.mp rfl
      omega

/-! ## pieces that are cut short -/

omit [DecidableEq α] in
theorem mem_tail_of_getElem? {p : List α} {i : Nat} {x : α} (h : p[i + 1]? = some x) :
    x ∈ p.tail := by
  rw [← List.getElem?_tail] at h
  exact List.mem_of_getElem? h

omit [DecidableEq α] in
theorem glue_take (pre : List (List α)) (p : List α) (post : List (List α)) (k : Nat) :
    glue c (pre ++ p :: post)
      = glue c (pre ++ [p.take k]) ++ (p.drop k ++ post.flatMap (c :: ·)) := by
  have hp : p ++ post.flatMap (c :: ·) = p.take k ++ (p.drop k ++ post.flatMap (c :: ·)) := by
    rw [← List.append_assoc, List.take_append_drop]
  cases pre with
  | nil => simpa [glue] using hp
  | cons q pre => simpa [glue] using hp

omit [DecidableEq α] in
theorem glue_concat (pre : List (List α)) (p : List α) : ∃ X, glue c (pre ++ [p]) = X ++ p := by
  cases pre with
  | nil => exact ⟨[], by simp [glue]⟩
  | cons q pre => exact ⟨q ++ pre.flatMap (c :: ·) ++ [c], by simp [glue]⟩

/-- of a piece that is cut short the rest cannot come back as further pieces -/
theorem merge_short {s : List α} {pre post : List (List α)} {p : List α}
    (h : (cut c [] s).1 = pre ++ p :: post) {k : Nat} (hk : 2 ≤ k) (hlt : k < p.length)
    (v : List α) (more : List (List α)) :
    (pre ++ p.take k :: v :: more).foldl (merge c) [] ≠ s := by
  have hfree : c ∉ p.tail := cut_free c [] s List.not_mem_nil p (by simp [h])
  have hs := glue_cut c [] s
  obtain ⟨q, qs, hc, hne, -⟩ := cut_shape c [] s
  have htake : p.take k ≠ [] := by
    intro ht
    have := congrArg List.length ht
    rw [List.length_take, List.length_nil] at this
    omega
  -- behind what has been merged there is a separator, at the position of an element of the piece
  have hat : ∀ ps : List (List α), ps ≠ [] → (∀ q qs, ps = q :: qs → q ≠ []) →
      (ps ++ v :: more).foldl (merge c) [] = s → s[(glue c ps).length]? = some c := by
    intro ps hps hq hm
    obtain ⟨q, qs, rfl⟩ := List.exists_cons_of_ne_nil hps
    rw [List.cons_append, foldl_merge_cons c (hq q qs rfl), ← List.cons_append,
      glue_append c hps] at hm
    rw [← hm, List.getElem?_append_right (Nat.le_refl _), Nat.sub_self, List.flatMap_cons]
    rfl
  rw [h, List.nil_append, glue_take c pre p post k] at hs
  intro hm
  rw [show pre ++ p.take k :: v :: more = (pre ++ [p.take k]) ++ v :: more by simp] at hm
  by_cases hq : q = []
  · -- the first piece is empty, and so everything is one place further to the left
    subst hq
    rcases pre with _ | ⟨q, pre⟩
    · have : p = [] := (List.cons.inj (h.symm.trans hc)).1
      subst this
      cases hlt
    obtain ⟨rfl, rfl⟩ := List.cons.inj (h.symm.trans hc)
    obtain ⟨X, hX⟩ := glue_concat c pre (p.take k)
    have hsep := hat (pre ++ [p.take k]) (by simp) ?_ hm
    · rw [hs, List.cons_append, glue_cons_ne c (by simp), List.nil_append, hX] at hsep
      have hlen : (X ++ p.take k).length = (X.length + (k - 1)) + 1 := by
        rw [List.length_append, List.length_take]
        omega
      rw [hlen, List.append_assoc, List.cons_append, List.getElem?_cons_succ, List.append_assoc,
        List.getElem?_append_right (by omega), Nat.add_sub_cancel_left,
        List.getElem?_append_left (by rw [List.length_take]; omega),
        List.getElem?_take_of_lt (by omega), show k - 1 = (k - 2) + 1 by omega] at hsep
      exact hfree (mem_tail_of_getElem? hsep)
    · intro q qs hps
      rcases pre with _ | ⟨q', pre⟩
      · rw [← (List.cons.inj hps).1]
        exact htake
      · rw [← (List.cons.inj hps).1]
        exact hne q' (by simp)
  · have hsep := hat (pre ++ [p.take k]) (by simp) ?_ hm
    · rw [hs, List.append_assoc, List.getElem?_append_right (Nat.le_refl _), Nat.sub_self,
        List.append_assoc, List.getElem?_append_left (by rw [List.length_drop]; omega),
        List.getElem?_drop,
        show k + 0 = (k - 1) + 1 by omega] at hsep
      exact hfree (mem_tail_of_getElem? hsep)
    · intro q' qs' hps
      rcases pre with _ | ⟨q'', pre⟩
      · rw [← (List.cons.inj hps).1]
        exact htake
      · rw [← (List.cons.inj hps).1, (List.cons.inj (h.symm.trans hc)).1]
        exact hq

end

end Cut
