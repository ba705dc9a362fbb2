import Iotivity.Security.Query

/-!
# Resources by type: `oc_filter_resource_by_rt`

The filter goes through the query with an iterator that counts `&`: the `n`-th call reads from behind
the `n - 1`st of them to the next `=`.  A segment without `=` is read together with the ones behind it,
and the key that comes out holds a `&`, so it is not `rt`; the segment behind is read once more, from
its own start.  The iterator says that there is no more when the value of the pair ends the query.

* `filterSegments`       the filter as it goes through the segments;
* `filterLoop_eq`        the loop with its iterator is this;
* `filterByRt_iff`       what is let through: no type is asked for, or one that the resource has.

The bytes of a type are those in front of its terminator, and lengths of queries are ints.
-/

namespace Security

/-! ## the segments -/

/-- the value of a segment with the key `rt` -/
def rtValue (s : Bytes) : Option Bytes :=
  (memchr 61 s).bind fun i => if s.take i = ascii "rt" then some (s.drop (i + 1)) else none

/-- the filter on segments; `ok` is `match` -/
def filterSegments (types : List Bytes) : List Bytes → Bool → Bool
  | [], ok => ok
  | s :: ss, ok =>
    match rtValue s with
    | none => filterSegments types ss ok
    | some v =>
      if v ≠ [] ∧ types.contains v then true else filterSegments types ss (ok && v = [])

theorem rtValue_eq_none {s : Bytes} (h : memchr 61 s = none) : rtValue s = none := by
  rw [rtValue, h]
  rfl

theorem rtValue_of_key {s : Bytes} {i : Nat} (h : memchr 61 s = some i) (hk : s.take i = ascii "rt") :
    rtValue s = some (s.drop (i + 1)) := by
  rw [rtValue, h]
  exact if_pos hk

theorem rtValue_of_not_key {s : Bytes} {i : Nat} (h : memchr 61 s = some i) (hk : s.take i ≠ ascii "rt") :
    rtValue s = none := by
  rw [rtValue, h]
  exact if_neg hk

theorem rtValue_iff {s v : Bytes} : rtValue s = some v ↔ s = ascii "rt=" ++ v := by
  constructor
  · intro h
    obtain ⟨i, hi, hv⟩ := Option.bind_eq_some_iff.mp h
    split at hv
    · next hk =>
      have hlen : i = 2 := by
        have hl := congrArg List.length hk
        rw [List.length_take, Nat.min_eq_left (Nat.le_of_lt (memchr_lt hi))] at hl
        exact hl
      have hlt : i < s.length := memchr_lt hi
      have hc : s[i] = 61 := by
        have hp := (List.findIdx?_eq_some_iff_getElem.mp hi).2.1
        exact of_decide_eq_true hp
      have hsplit : s = s.take i ++ s[i] :: s.drop (i + 1) := by
        rw [← List.drop_eq_getElem_cons, List.take_append_drop]
      rw [hsplit, hk, hc, Option.some.inj hv]
      rfl
    · cases hv
  · rintro rfl
    have hm : memchr 61 (ascii "rt=" ++ v) = some 2 :=
      memchr_append_self (s := ascii "rt") (by decide) v
    rw [rtValue, hm]
    rfl

theorem filterSegments_none {types ss : List Bytes} {s : Bytes} (h : rtValue s = none) (ok : Bool) :
    filterSegments types (s :: ss) ok = filterSegments types ss ok := by
  rw [filterSegments, h]

theorem filterSegments_some {types ss : List Bytes} {s v : Bytes} (h : rtValue s = some v) (ok : Bool) :
    filterSegments types (s :: ss) ok =
      if v ≠ [] ∧ types.contains v then true else filterSegments types ss (ok && v = []) := by
  rw [filterSegments, h]

theorem filterSegments_iff (types segs : List Bytes) (ok : Bool) :
    filterSegments types segs ok = true ↔
      (∃ s ∈ segs, ∃ v, rtValue s = some v ∧ v ≠ [] ∧ v ∈ types) ∨
        ok = true ∧ ∀ s ∈ segs, ∀ v, rtValue s = some v → v = [] := by
  induction segs generalizing ok with
  | nil => simp [filterSegments]
  | cons s ss ih =>
    rw [filterSegments]
    cases hv : rtValue s with
    | none =>
      dsimp only
      rw [ih]
      simp [hv]
    | some v =>
      dsimp only
      by_cases hm : v ≠ [] ∧ types.contains v
      · rw [if_pos hm]
        exact iff_of_true rfl (Or.inl ⟨s, List.mem_cons_self, v, hv, hm.1, List.contains_iff_mem.mp hm.2⟩)
      · rw [if_neg hm, ih]
        have hnot : ¬ (v ≠ [] ∧ v ∈ types) := fun h => hm ⟨h.1, List.contains_iff_mem.mpr h.2⟩
        simp only [List.exists_mem_cons_iff, List.forall_mem_cons, hv, Option.some.injEq, Bool.and_eq_true,
          decide_eq_true_eq, exists_eq_left', forall_eq', hnot, false_or, and_assoc]

/-! ## the iterator -/

/-- one `&` further -/
theorem behindAmp_succ (n : Nat) (q : Bytes) :
    behindAmp (n + 1) q = (behindAmp n q).bind fun q' => (memchr 38 q').map fun i => q'.drop (i + 1) := by
  induction n generalizing q with
  | zero =>
    rw [behindAmp, behindAmp, Option.bind_some]
    cases memchr 38 q <;> rfl
  | succ n ih =>
    rw [behindAmp]
    conv => rhs; rw [behindAmp]
    rw [Option.bind_assoc]
    exact congrArg _ (funext fun i => ih _)

theorem behindAmp_suffix {n : Nat} {q q' : Bytes} (h : behindAmp n q = some q') : q' <:+ q := by
  induction n generalizing q with
  | zero =>
    obtain rfl := Option.some.inj h
    exact List.suffix_refl q
  | succ n ih =>
    obtain ⟨i, -, hi⟩ := Option.bind_eq_some_iff.mp h
    exact (ih hi).trans (List.drop_suffix _ _)

/-- the pair that is read from a position, from what the tokenizer reads there as the first one -/
theorem nthKeyValue_behind {n : Nat} {q q' : Bytes} (h : behindAmp n q = some q') :
    ocRiGetQueryNthKeyValue q (n + 1) =
      (ocRiGetQueryNthKeyValue q' 1).map fun x => (x.1 + (q.length - q'.length), x.2) := by
  have hle : q'.length ≤ q.length := (behindAmp_suffix h).length_le
  rw [ocRiGetQueryNthKeyValue, nthKeyValue_one, Nat.add_sub_cancel, h, Option.bind_some, Option.map_map]
  refine congrArg (fun f => Option.map f (memchr 61 q')) (funext fun i => Prod.ext ?_ rfl)
  show q.length - (q'.drop (i + 1)).length + _ + 1 = q'.length - (q'.drop (i + 1)).length + _ + 1 + _
  have hd : (q'.drop (i + 1)).length ≤ q'.length := by
    rw [List.length_drop]
    exact Nat.sub_le _ _
  omega

theorem behindAmp_last {n : Nat} {q q' : Bytes} (h : behindAmp n q = some q') (hs : 38 ∉ q') :
    behindAmp (n + 1) q = none := by
  rw [behindAmp_succ, h, Option.bind_some, memchr_eq_none.mpr hs]
  rfl

theorem behindAmp_next {n : Nat} {q s q' : Bytes} (h : behindAmp n q = some (s ++ 38 :: q')) (hs : 38 ∉ s) :
    behindAmp (n + 1) q = some q' := by
  rw [behindAmp_succ, h, Option.bind_some, memchr_append_self hs]
  simp

/-- where nothing is read the loop ends -/
theorem filterLoop_none {types : List Bytes} {q : Bytes} {n : Nat}
    (h : ocRiGetQueryNthKeyValue q (n + 1) = none) (fuel : Nat) (ok : Bool) :
    filterLoop types q fuel n ok = ok := by
  cases fuel with
  | zero => rfl
  | succ fuel => rw [filterLoop, h]

/-- the last segment -/
theorem filterLoop_last {types : List Bytes} {q : Bytes} {n : Nat} {q' : Bytes}
    (h : behindAmp n q = some q') (hs : (38 : UInt8) ∉ q') (fuel : Nat) (ok : Bool) :
    filterLoop types q (fuel + 1) n ok = filterSegments types (q'.splitOn 38) ok := by
  have hle : q'.length ≤ q.length := (behindAmp_suffix h).length_le
  rw [filterLoop, nthKeyValue_behind h, List.splitOn_eq_singleton hs]
  cases hi : memchr 61 q' with
  | none =>
    rw [filterSegments_none (rtValue_eq_none hi), nthKeyValue_one, hi]
    rfl
  | some i =>
    rw [nthKeyValue_last hs hi, Option.map_some]
    dsimp only
    by_cases hk : q'.take i = ascii "rt"
    · rw [if_pos hk, filterSegments_some (rtValue_of_key hi hk),
        if_pos (show q'.length + 1 + (q.length - q'.length) ≥ q.length by omega)]
      rfl
    · have hend : ocRiGetQueryNthKeyValue q (n + 1 + 1) = none := by
        rw [ocRiGetQueryNthKeyValue, Nat.add_sub_cancel, behindAmp_last h hs]
        rfl
      rw [if_neg hk, filterSegments_none (rtValue_of_not_key hi hk), filterLoop_none hend]
      rfl

/-- **The loop is the filter on segments**, from the segment that the iterator stands at. -/
theorem filterLoop_eq {types : List Bytes} {q : Bytes} {fuel n : Nat} {q' : Bytes}
    (h : behindAmp n q = some q') (hf : q'.length < fuel) (ok : Bool) :
    filterLoop types q fuel n ok = filterSegments types (q'.splitOn 38) ok := by
  induction fuel generalizing n q' ok with
  | zero => exact absurd hf (Nat.not_lt_zero _)
  | succ fuel ih =>
    have hle : q'.length ≤ q.length := (behindAmp_suffix h).length_le
    rcases segment_cases q' with hs | ⟨s, q'', hs, rfl⟩
    · exact filterLoop_last h hs fuel ok
    · rw [filterLoop, nthKeyValue_behind h]
      have hnext := behindAmp_next h hs
      rw [List.length_append, List.length_cons] at hf hle
      have hrest := fun ok => ih hnext (show q''.length < fuel by omega) ok
      rw [List.splitOn_append_cons_self_of_not_mem hs]
      cases hi : memchr 61 s with
      | some i =>
        rw [nthKeyValue_valued hs hi, Option.map_some]
        dsimp only
        by_cases hk : s.take i = ascii "rt"
        · rw [if_pos hk, filterSegments_some (rtValue_of_key hi hk)]
          refine if_congr Iff.rfl rfl ?_
          split
          · -- the value ends the query, but for an `&`
            next hpos =>
            rw [List.length_append, List.length_cons] at hpos
            have hnil : q'' = [] := List.eq_nil_of_length_eq_zero (by omega)
            rw [hnil]
            rfl
          · exact hrest _
        · rw [if_neg hk, filterSegments_none (rtValue_of_not_key hi hk)]
          exact hrest ok
      | none =>
        rw [nthKeyValue_valueless hi, filterSegments_none (rtValue_eq_none hi)]
        cases hn : ocRiGetQueryNthKeyValue q'' 1 with
        | none =>
          have hend : ocRiGetQueryNthKeyValue q (n + 1 + 1) = none := by
            rw [nthKeyValue_behind hnext, hn]
            rfl
          exact (filterLoop_none hend fuel ok).symm.trans (hrest ok)
        | some x =>
          have hk : s ++ 38 :: x.2.1 ≠ ascii "rt" := fun hk => by
            have hm : (38 : UInt8) ∈ ascii "rt" := hk ▸ List.mem_append_right s List.mem_cons_self
            exact absurd hm (by decide)
          show (if s ++ 38 :: x.2.1 = ascii "rt" then _ else _) = _
          rw [if_neg hk]
          exact hrest ok

/-- **What the filter lets through**: a query that asks for no type, or for one that the resource has. -/
theorem filterByRt_iff (resource : Resource) (query : Bytes) :
    ocFilterResourceByRt resource query = true ↔
      (∀ v, v ≠ [] → ascii "rt=" ++ v ∉ query.splitOn 38) ∨
        ∃ v, v ≠ [] ∧ ascii "rt=" ++ v ∈ query.splitOn 38 ∧ v ∈ resource.types := by
  rw [ocFilterResourceByRt, filterLoop_eq (n := 0) rfl (Nat.lt_succ_self _), filterSegments_iff, or_comm]
  refine or_congr ?_ ?_
  · constructor
    · rintro ⟨-, h⟩ v hv hm
      exact hv (h _ hm v (rtValue_iff.mpr rfl))
    · intro h
      refine ⟨rfl, fun s hs v hv => ?_⟩
      by_contra hne
      rw [rtValue_iff.mp hv] at hs
      exact h v hne hs
  · constructor
    · rintro ⟨s, hs, v, hv, hne, ht⟩
      rw [rtValue_iff.mp hv] at hs
      exact ⟨v, hne, hs, ht⟩
    · rintro ⟨v, hne, hs, ht⟩
      exact ⟨_, hs, v, rtValue_iff.mpr rfl, hne, ht⟩

end Security
