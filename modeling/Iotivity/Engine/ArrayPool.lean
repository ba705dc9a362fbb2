import Iotivity.Engine.BytePool

/-!
# The int pool and the double pool: `oc_mmem.c`

Arrays of numbers live in pools of their own, with sizes that are counted in elements.  Memory that is
given back is closed up by the code that closes up the byte pool: it moves as many bytes as there are
elements behind the array, and takes as many bytes off the pointers as the array has elements.

* `ArrayPool`              a pool, its list, and what the handles hold; places count in bytes;
* `ArrayPool.ocMmemAlloc`, `ocMmemFree`;
* `Op.Clean`               an array is given back only if it has no elements, or nothing lies behind it;
* `arrays_orderly_run`        there, arrays keep their elements, are aligned and do not overlap.
-/

set_option linter.unusedSectionVars false

namespace Coap
open Intrusive Function Memory

/-- `ints` or `doubles`, with their list and the number of elements that are available -/
structure ArrayPool (H : Type) where
  chain : Chain H
  ptr : H → Option Nat
  size : H → Nat
  bytes : Nat → UInt8
  avail : UInt32

namespace ArrayPool

/-- `INT_POOL` and `DOUBLE_POOL` -/
inductive Kind where
  | int | double

/-- `sizeof(int)` and `sizeof(double)` -/
def Kind.elementSize : Kind → Nat
  | .int => 4
  | .double => 8

section
variable {H : Type} [Fintype H] [DecidableEq H] (kind : Kind) (poolSize : UInt32)

/-! ## the operations

`none` stands for a call that does not come back, as for the byte pool. -/

/-- `_oc_mmem_alloc(m, size, pool)`, in a pool of `poolSize` elements -/
def ocMmemAlloc (m : H) (size : Nat) (s : ArrayPool H) : Option (Nat × ArrayPool H) :=
  if s.avail.toNat < size then some (0, s)
  else
    match s.chain.add (Fintype.card H) m with
    | none => none
    | some chain =>
      some (BytePool.returned (size * kind.elementSize),
        { s with
          chain
          ptr := update s.ptr m (some (kind.elementSize * (poolSize - s.avail).toNat))
          size := update s.size m size
          avail := s.avail - UInt32.ofNat size })

/-- What is behind the array of `m` moves down.  The difference of two pointers counts elements, and
`memmove` counts bytes; a negative difference is too much for it. -/
def closeUp (m : H) (s : ArrayPool H) : Option (ArrayPool H) :=
  match s.chain.next m with
  | none => some s
  | some n =>
    match s.ptr m, s.ptr n with
    | some dst, some src =>
      let rest := kind.elementSize * (poolSize - s.avail).toNat
      if rest < src then none
      else
        match BytePool.moveDown s.chain.next (s.size m) (Fintype.card H) (some n) s.ptr with
        | none => none
        | some ptr =>
          some { s with ptr, bytes := memmove s.bytes dst src ((rest - src) / kind.elementSize) }
    | _, _ => none

/-- `_oc_mmem_free(m, pool)` -/
def ocMmemFree (m : H) (s : ArrayPool H) : Option (ArrayPool H) :=
  match closeUp kind poolSize m s with
  | none => none
  | some s =>
    match s.chain.remove (Fintype.card H) m with
    | none => none
    | some chain => some { s with chain, avail := s.avail + UInt32.ofNat (s.size m) }

/-- bytes are stored in the array of a handle, from an offset on -/
def store (m : H) (i : Nat) (data : List UInt8) (s : ArrayPool H) : ArrayPool H :=
  match s.ptr m with
  | none => s
  | some p => { s with bytes := write s.bytes (p + i) data }

/-- the elements of an array, byte by byte -/
def content (s : ArrayPool H) (m : H) : List UInt8 :=
  match s.ptr m with
  | none => []
  | some p => read s.bytes p (kind.elementSize * s.size m)

/-- the pool at start-up -/
def init (bytes : Nat → UInt8) : ArrayPool H :=
  ⟨⟨none, fun _ => none⟩, fun _ => none, fun _ => 0, bytes, poolSize⟩

/-! ## histories -/

/-- what is done with a pool -/
inductive Op (H : Type) where
  | alloc (m : H) (size : Nat)
  | free (m : H)
  | store (m : H) (i : Nat) (data : List UInt8)

/-- an operation, together with the handles that are in use: those that were not refused, and not
freed since -/
def Op.apply : Op H → List H × ArrayPool H → Option (List H × ArrayPool H)
  | .alloc m size, (live, s) =>
    (ocMmemAlloc kind poolSize m size s).map fun r =>
      (if s.avail.toNat < size then live else live ++ [m], r.2)
  | .free m, (live, s) => (ocMmemFree kind poolSize m s).map fun s => (live.erase m, s)
  | .store m i data, (live, s) => some (live, s.store m i data)

/-- a handle in use is not allocated again, one that is not in use is not freed, and what is stored
stays within an array -/
def Op.Permitted (live : List H) (s : ArrayPool H) : Op H → Prop
  | .alloc m _ => m ∉ live
  | .free m => m ∈ live
  | .store m i data => m ∈ live ∧ i + data.length ≤ kind.elementSize * s.size m

/-- the array that is given back is the last one in the pool, or has no elements -/
def Op.Clean (live : List H) (s : ArrayPool H) : Op H → Prop
  | .free m => live.getLast? = some m ∨ s.size m = 0
  | _ => True

/-- what comes about in histories whose steps meet a condition -/
inductive Reached (C : List H → ArrayPool H → Op H → Prop) : List H → ArrayPool H → Prop
  | init (bytes : Nat → UInt8) : Reached C [] (init poolSize bytes)
  | step {live live' : List H} {s s' : ArrayPool H} (op : Op H) (h : Reached C live s)
      (hp : op.Permitted kind live s) (hc : C live s op)
      (hs : op.apply kind poolSize (live, s) = some (live', s')) : Reached C live' s'

/-! ## what a pool is for -/

/-- a call comes back, and the other arrays that are in use keep their elements -/
def KeepsOthers (live : List H) (m : H) (s : ArrayPool H) (r : Option (ArrayPool H)) : Prop :=
  ∃ s', r = some s' ∧ ∀ k ∈ live, k ≠ m → s'.content kind k = s.content kind k

/-- a pool on which its callers can rely, as long as they meet a condition -/
structure Orderly (C : List H → ArrayPool H → Op H → Prop) (live : List H) (s : ArrayPool H) :
    Prop where
  aligned : ∀ m ∈ live, ∃ p, s.ptr m = some p ∧ kind.elementSize ∣ p ∧
    p + kind.elementSize * s.size m ≤ kind.elementSize * poolSize.toNat
  apart : ∀ m ∈ live, ∀ k ∈ live, m ≠ k → ∃ p q, s.ptr m = some p ∧ s.ptr k = some q ∧
    (p + kind.elementSize * s.size m ≤ q ∨ q + kind.elementSize * s.size k ≤ p)
  free : ∀ m ∈ live, C live s (.free m) → KeepsOthers kind live m s (ocMmemFree kind poolSize m s)

/-- the arrays in use fill the pool from its start on, and the rest of it is available -/
structure Tiled (live : List H) (s : ArrayPool H) : Prop where
  holds : s.chain.Holds live
  placed : Memory.Placed s.ptr (fun a => kind.elementSize * s.size a) 0 live
  avail : s.avail.toNat + room s.size live = poolSize.toNat

end

/-! ## the operations on a tiled pool -/

section
variable {H : Type} [Fintype H] [DecidableEq H] {kind : Kind} {poolSize : UInt32} {live : List H}
  {s s' : ArrayPool H} {m k : H}

theorem room_mul (w : Nat) (size : H → Nat) (l : List H) :
    room (fun a => w * size a) l = w * room size l := by
  induction l with
  | nil => rfl
  | cons a l ih => rw [room_cons, room_cons, ih, Nat.mul_add]

theorem content_congr (hp : s'.ptr k = s.ptr k) (hs : s'.size k = s.size k)
    (hb : s'.bytes = s.bytes) : s'.content kind k = s.content kind k := by
  unfold content
  rw [hp, hs, hb]

/-- the used part of the pool -/
theorem Tiled.used (h : Tiled kind poolSize live s) :
    (poolSize - s.avail).toNat = room s.size live := by
  have hav := h.avail
  have hle : s.avail ≤ poolSize := UInt32.le_iff_toNat_le.mpr (by omega)
  rw [UInt32.toNat_sub_of_le _ _ hle]
  omega

/-- what is asked for is there -/
theorem Tiled.alloc {size : Nat} (h : Tiled kind poolSize live s) (hm : m ∉ live)
    (hs : size ≤ s.avail.toNat) :
    ∃ r s', ocMmemAlloc kind poolSize m size s = some (r, s') ∧
      Tiled kind poolSize (live ++ [m]) s' := by
  have hlen := h.holds.nodup.length_le_card
  obtain ⟨chain, hadd, hholds⟩ := Chain.add_holds h.holds hm hlen
  have hne : ∀ k ∈ live, k ≠ m := fun k hk he => hm (he ▸ hk)
  have hsize : ∀ k ∈ live, update s.size m size k = s.size k :=
    fun k hk => update_of_ne (hne k hk) _ _
  have hbytes : ∀ k ∈ live, kind.elementSize * update s.size m size k =
      kind.elementSize * s.size k := fun k hk => by rw [hsize k hk]
  unfold ocMmemAlloc
  rw [if_neg (Nat.not_lt.mpr hs), hadd]
  refine ⟨_, _, rfl, hholds, ?_, ?_⟩
  · refine placed_append.mpr ⟨h.placed.congr (fun k hk => update_of_ne (hne k hk) _ _) hbytes, ?_⟩
    rw [room_congr hbytes, room_mul]
    refine ⟨?_, trivial⟩
    show update s.ptr m _ m = _
    rw [update_self, h.used, Nat.zero_add]
  · have hav := h.avail
    have hn : (UInt32.ofNat size).toNat = size := BytePool.toNat_ofNat_le s.avail hs
    have hle : UInt32.ofNat size ≤ s.avail := UInt32.le_iff_toNat_le.mpr (by omega)
    show (s.avail - UInt32.ofNat size).toNat + room (update s.size m size) (live ++ [m]) = _
    rw [UInt32.toNat_sub_of_le _ _ hle, hn, room_append, room_congr hsize, room_cons, room_nil,
      update_self]
    omega

/-- nothing lies behind the last array -/
theorem nothing_behind {l r : List H} (hmr : m ∉ r) (hlast : (l ++ m :: r).getLast? = some m) : r = [] := by
  cases r with
  | nil => rfl
  | cons n r =>
    have hend : (n :: r).getLast? = some m := by
      rwa [List.getLast?_append_of_ne_nil _ (List.cons_ne_nil _ _), List.getLast?_cons_cons] at hlast
    exact absurd (List.mem_of_getLast? hend) hmr

/-- nothing moves when nothing lies behind an array, or the array has no elements -/
theorem Tiled.closeUp_clean (h : Tiled kind poolSize live s) (hm : m ∈ live)
    (hc : live.getLast? = some m ∨ s.size m = 0) : closeUp kind poolSize m s = some s := by
  obtain ⟨l, r, rfl⟩ := List.append_of_mem hm
  obtain ⟨_, hp, hr⟩ := placed_append.mp h.placed
  have hnm := (List.nodup_append.mp h.holds.nodup).2.1
  obtain ⟨hmr, hnr⟩ := List.nodup_cons.mp hnm
  have hpath : Path s.chain.next (s.chain.next m) r := h.holds.path.behind
  unfold closeUp
  cases r with
  | nil =>
    rw [show s.chain.next m = none from hpath]
  | cons n r =>
    have hz : s.size m = 0 := hc.resolve_left fun hlast =>
      absurd (nothing_behind hmr hlast) (List.cons_ne_nil n r)
    have hsize : kind.elementSize * s.size m = 0 := by rw [hz, Nat.mul_zero]
    dsimp only at hr
    rw [Nat.zero_add, room_mul] at hp hr
    rw [hsize, Nat.add_zero] at hr
    obtain ⟨ptr', hmove, hin, hout⟩ := BytePool.moveDown_path 0 s.ptr hpath hnr hnr.length_le_card
    have hptr : ptr' = s.ptr := by
      funext a
      by_cases ha : a ∈ n :: r
      · rw [hin a ha]
        cases s.ptr a with
        | none => rfl
        | some p => rfl
      · exact hout a ha
    have hrest : ¬ kind.elementSize * (poolSize - s.avail).toNat <
        kind.elementSize * room s.size l := by
      rw [h.used, room_append]
      exact Nat.not_lt.mpr (Nat.mul_le_mul_left _ (Nat.le_add_right _ _))
    rw [hpath.1]
    dsimp only
    rw [hp, hr.1]
    dsimp only
    rw [if_neg hrest, hz, ← hpath.1, hmove, memmove_self, hptr]

/-- an array behind which nothing lies, or without elements, is given back -/
theorem Tiled.free (h : Tiled kind poolSize live s) (hm : m ∈ live)
    (hc : live.getLast? = some m ∨ s.size m = 0) :
    ∃ s', ocMmemFree kind poolSize m s = some s' ∧ Tiled kind poolSize (live.erase m) s' ∧
      ∀ k, s'.content kind k = s.content kind k := by
  have hclose := h.closeUp_clean hm hc
  obtain ⟨l, r, rfl⟩ := List.append_of_mem hm
  have hlen := h.holds.nodup.length_le_card
  obtain ⟨chain, hrem, hholds⟩ := Chain.remove_holds (a := m) h.holds hlen
  have hml : m ∉ l := by
    intro hml
    exact (List.nodup_append.mp h.holds.nodup).2.2 m hml m List.mem_cons_self rfl
  have herase : (l ++ m :: r).erase m = l ++ r := by
    rw [List.erase_append_right _ hml, List.erase_cons_head]
  obtain ⟨hl, _, hr⟩ := placed_append.mp h.placed
  have hsum := h.avail
  rw [room_append, room_cons] at hsum
  rw [herase] at hholds ⊢
  unfold ocMmemFree
  rw [hclose]
  dsimp only
  rw [hrem]
  refine ⟨_, rfl, ⟨hholds, ?_, ?_⟩, fun k => rfl⟩
  · refine placed_append.mpr ⟨hl, ?_⟩
    rcases hc with hlast | hz
    · obtain ⟨hmr, _⟩ := List.nodup_cons.mp (List.nodup_append.mp h.holds.nodup).2.1
      rw [nothing_behind hmr hlast]
      trivial
    · have hsize : kind.elementSize * s.size m = 0 := by rw [hz, Nat.mul_zero]
      dsimp only at hr
      rw [hsize, Nat.add_zero] at hr
      exact hr
  · have hn : (UInt32.ofNat (s.size m)).toNat = s.size m :=
      BytePool.toNat_ofNat_le poolSize (by omega)
    have hlt := poolSize.toNat_lt
    show (s.avail + UInt32.ofNat (s.size m)).toNat + room s.size (l ++ r) = poolSize.toNat
    rw [UInt32.toNat_add, hn, room_append, Nat.mod_eq_of_lt (by omega)]
    omega

theorem Tiled.store (h : Tiled kind poolSize live s) (i : Nat) (data : List UInt8) :
    Tiled kind poolSize live (s.store m i data) := by
  unfold ArrayPool.store
  split
  · exact h
  · exact ⟨h.holds, h.placed, h.avail⟩

/-! ## histories -/

/-- what one step preserves -/
theorem Tiled.apply {live' : List H} {op : Op H} (h : Tiled kind poolSize live s)
    (hp : op.Permitted kind live s) (hc : op.Clean live s)
    (hs : op.apply kind poolSize (live, s) = some (live', s')) : Tiled kind poolSize live' s' := by
  cases op with
  | alloc m size =>
    by_cases hav : s.avail.toNat < size
    · have hr : ocMmemAlloc kind poolSize m size s = some (0, s) := if_pos hav
      simp only [Op.apply, hr, Option.map_some, if_pos hav] at hs
      cases hs
      exact h
    · obtain ⟨r, t, hr, ht⟩ := h.alloc hp (Nat.le_of_not_lt hav)
      simp only [Op.apply, hr, Option.map_some, if_neg hav] at hs
      cases hs
      exact ht
  | free m =>
    obtain ⟨t, hr, ht, _⟩ := h.free hp hc
    simp only [Op.apply, hr, Option.map_some] at hs
    cases hs
    exact ht
  | store m i data =>
    cases hs
    exact h.store i data

theorem Reached.tiled (h : Reached kind poolSize Op.Clean live s) : Tiled kind poolSize live s := by
  induction h with
  | init bytes => exact ⟨⟨rfl, List.nodup_nil⟩, trivial, rfl⟩
  | step op _ hp hc hs ih => exact ih.apply hp hc hs

/-- what callers rely on, in a pool that is tiled -/
theorem Tiled.orderly (h : Tiled kind poolSize live s) : Orderly kind poolSize Op.Clean live s where
  aligned := by
    intro m hm
    obtain ⟨l, r, rfl⟩ := List.append_of_mem hm
    have hptr := (placed_append.mp h.placed).2.1
    rw [Nat.zero_add, room_mul] at hptr
    refine ⟨_, hptr, Nat.dvd_mul_right _ _, ?_⟩
    have hsum := h.avail
    rw [room_append, room_cons] at hsum
    rw [← Nat.mul_add]
    exact Nat.mul_le_mul_left _ (by omega)
  apart := fun m hm k hk hmk => h.placed.disjoint hm hk hmk
  free := by
    intro m hm hc
    obtain ⟨s', hs, _, hkeep⟩ := h.free hm hc
    exact ⟨s', hs, fun k _ _ => hkeep k⟩

/-- **The pools of numbers.**  In every history in which an array is given back only if it is the last
one or has no elements, arrays are aligned, inside the pool and apart, and what is given back leaves
the others as they are. -/
theorem arrays_orderly_run (kind : Kind) (poolSize : UInt32) (live : List H) (s : ArrayPool H)
    (h : Reached kind poolSize Op.Clean live s) : Orderly kind poolSize Op.Clean live s :=
  h.tiled.orderly

end

/-! ## sample inputs -/

/-- two arrays with one element each -/
def sampleArrays (kind : Kind) : Option (List (Fin 2) × ArrayPool (Fin 2)) :=
  ((Op.alloc 0 1).apply kind 100 ([], init 100 fun _ => 0)).bind ((Op.alloc 1 1).apply kind 100)

theorem reached_sampleArrays (kind : Kind)
    (C : List (Fin 2) → ArrayPool (Fin 2) → Op (Fin 2) → Prop)
    (hC : ∀ live s m, C live s (.alloc m 1)) :
    ∃ s, sampleArrays kind = some ([0, 1], s) ∧ Reached kind 100 C [0, 1] s := by
  refine ⟨_, rfl, .step (.alloc 1 1) (.step (.alloc 0 1) (.init fun _ => 0) List.not_mem_nil
    (hC _ _ _) rfl) ?_ (hC _ _ _) rfl⟩
  show (1 : Fin 2) ∉ [0]
  decide

/-- the first array is given back: the other one moves down by as many bytes as the first one had
elements -/
theorem array_misaligned :
    (∃ s : ArrayPool (Fin 2), Reached .int 100 (fun _ _ _ => True) [1] s ∧
      ¬ Orderly .int 100 (fun _ _ _ => True) [1] s) ∧
      ∃ s : ArrayPool (Fin 2), Reached .double 100 (fun _ _ _ => True) [1] s ∧
        ¬ Orderly .double 100 (fun _ _ _ => True) [1] s := by
  have hC : ∀ (live : List (Fin 2)) (s : ArrayPool (Fin 2)) (m : Fin 2), True :=
    fun _ _ _ => trivial
  constructor
  · obtain ⟨s, hs, hr⟩ := reached_sampleArrays .int (fun _ _ _ => True) hC
    obtain rfl := (Prod.mk.inj (Option.some.inj hs)).2
    refine ⟨_, .step (.free 0) hr List.mem_cons_self trivial rfl, fun h => ?_⟩
    obtain ⟨p, hp, hd, _⟩ := h.aligned 1 List.mem_cons_self
    obtain rfl : 3 = p := Option.some.inj hp
    exact absurd hd (by decide)
  · obtain ⟨s, hs, hr⟩ := reached_sampleArrays .double (fun _ _ _ => True) hC
    obtain rfl := (Prod.mk.inj (Option.some.inj hs)).2
    refine ⟨_, .step (.free 0) hr List.mem_cons_self trivial rfl, fun h => ?_⟩
    obtain ⟨p, hp, hd, _⟩ := h.aligned 1 List.mem_cons_self
    obtain rfl : 7 = p := Option.some.inj hp
    exact absurd hd (by decide)

/-- the last array is given back -/
theorem arrays_orderly_run_last :
    ∃ s, (sampleArrays .int).bind ((Op.free 1).apply .int 100) = some ([0], s) ∧
      Orderly .int 100 Op.Clean [0] s := by
  obtain ⟨s, hs, hr⟩ := reached_sampleArrays .int Op.Clean fun _ _ _ => trivial
  rw [hs]
  obtain rfl := (Prod.mk.inj (Option.some.inj hs)).2
  exact ⟨_, rfl, arrays_orderly_run _ _ _ _
    (.step (.free 1) hr (List.mem_cons_of_mem _ List.mem_cons_self) (Or.inl rfl) rfl)⟩

end ArrayPool
end Coap
