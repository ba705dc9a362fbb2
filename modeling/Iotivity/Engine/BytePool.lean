import Iotivity.Lib.Chain
import Iotivity.Lib.Tiling
import Mathlib.Data.Fintype.Card

/-!
# The byte pool: `oc_mmem.c`, `oc_helpers.c`

Without dynamic allocation all strings live in one array, in the order of `bytes_list`.  Memory that
is given back is closed up at once: the bytes behind it move down, and the handles behind it are
told their new places.

* `BytePool`              the array, the list, and what the handles hold;
* `BytePool.ocMmemAlloc`, `ocMmemFree`, `ocFreeString`, `ocNewString`;
* `Tiled`                 the strings in use fill the array from its start on;
* `Reached`               what can come about, as long as no string is empty;
* `reached_orderly`       there, the pool does what its callers rely on.

An empty string is linked into the list, but it counts as one that was not allocated.
-/

set_option linter.unusedSectionVars false

namespace Coap
open Intrusive Function Memory

/-- `bytes`, `bytes_list`, `avail_bytes`, and the fields `next` (in `chain`), `ptr` and `size` of the
handles; a place in the array is given by its index -/
structure BytePool (H : Type) where
  chain : Chain H
  ptr : H → Option Nat
  size : H → Nat
  bytes : Nat → UInt8
  avail : UInt32

namespace BytePool

section
variable {H : Type} [Fintype H] [DecidableEq H]

/-! ## the operations

`none` stands for a call that does not come back: a walk along a cycle of handles, a copy from a
null pointer, or a failed assertion. -/

/-- a count as `_oc_mmem_alloc` returns it: cast to `int`, and read as a `size_t` -/
def returned (n : Nat) : Nat :=
  if n % 2^32 < 2^31 then n % 2^32 else 2^64 - 2^32 + n % 2^32

/-- `_oc_mmem_alloc(m, size, BYTE_POOL)` in a pool of `poolSize` bytes -/
def ocMmemAlloc (poolSize : UInt32) (m : H) (size : Nat) (s : BytePool H) :
    Option (Nat × BytePool H) :=
  if s.avail.toNat < size then some (0, s)
  else
    match s.chain.add (Fintype.card H) m with
    | none => none
    | some chain =>
      some (returned size,
        { s with
          chain
          ptr := update s.ptr m (some (poolSize - s.avail).toNat)
          size := update s.size m size
          avail := s.avail - UInt32.ofNat size })

/-- the handles from `x` on are told that their strings have moved down -/
def moveDown (next : H → Option H) (d : Nat) :
    Nat → Option H → (H → Option Nat) → Option (H → Option Nat)
  | _, none, ptr => some ptr
  | 0, some _, _ => none
  | fuel + 1, some n, ptr => moveDown next d fuel (next n) (update ptr n ((ptr n).map (· - d)))

/-- the bytes behind the string of `m` move down to where it is -/
def closeUp (poolSize : UInt32) (m : H) (s : BytePool H) : Option (BytePool H) :=
  match s.chain.next m with
  | none => some s
  | some n =>
    match s.ptr m, s.ptr n with
    | some dst, some src =>
      match moveDown s.chain.next (s.size m) (Fintype.card H) (some n) s.ptr with
      | none => none
      | some ptr =>
        some { s with
          ptr
          bytes := memmove s.bytes dst src ((poolSize - s.avail).toNat - src) }
    | _, _ => none

/-- `_oc_mmem_free(m, BYTE_POOL)`; the handle keeps its fields -/
def ocMmemFree (poolSize : UInt32) (m : H) (s : BytePool H) : Option (BytePool H) :=
  match closeUp poolSize m s with
  | none => none
  | some s =>
    match s.chain.remove (Fintype.card H) m with
    | none => none
    | some chain => some { s with chain, avail := s.avail + UInt32.ofNat (s.size m) }

/-- the fields of a handle are set to zero -/
def clear (m : H) (s : BytePool H) : BytePool H :=
  { s with
    chain := s.chain.clear m
    ptr := update s.ptr m none
    size := update s.size m 0 }

/-- `oc_free_string`: `oc_free` on the byte pool -/
def ocFreeString (poolSize : UInt32) (m : H) (s : BytePool H) : Option (BytePool H) :=
  (ocMmemFree poolSize m s).map (clear m)

/-- bytes are stored in the string of a handle, from an offset on -/
def store (m : H) (i : Nat) (data : List UInt8) (s : BytePool H) : BytePool H :=
  match s.ptr m with
  | none => s
  | some p => { s with bytes := write s.bytes (p + i) data }

/-- `oc_new_string`; the assertion of `oc_malloc` may fail -/
def ocNewString (poolSize : UInt32) (m : H) (str : List UInt8) (s : BytePool H) :
    Option (BytePool H) :=
  match ocMmemAlloc poolSize m (str.length + 1) s with
  | none => none
  | some (r, s) => if r = 0 then none else some (store m 0 (str ++ [0]) s)

/-- the string of a handle -/
def content (s : BytePool H) (m : H) : List UInt8 :=
  match s.ptr m with
  | none => []
  | some p => read s.bytes p (s.size m)

/-- the pool at start-up: `oc_mmem_init`, and handles that are zero -/
def init (poolSize : UInt32) (bytes : Nat → UInt8) : BytePool H :=
  ⟨⟨none, fun _ => none⟩, fun _ => none, fun _ => 0, bytes, poolSize⟩

/-! ## histories -/

/-- what is done with a pool -/
inductive Op (H : Type) where
  | alloc (m : H) (size : Nat)
  | free (m : H)
  | freeString (m : H)
  | store (m : H) (i : Nat) (data : List UInt8)

/-- an operation, together with the handles that are in use: those that were allocated with
success, and not freed since -/
def Op.apply (poolSize : UInt32) : Op H → List H × BytePool H → Option (List H × BytePool H)
  | .alloc m size, (live, s) =>
    (ocMmemAlloc poolSize m size s).map fun r => (if r.1 = 0 then live else live ++ [m], r.2)
  | .free m, (live, s) => (ocMmemFree poolSize m s).map fun s => (live.erase m, s)
  | .freeString m, (live, s) => (ocFreeString poolSize m s).map fun s => (live.erase m, s)
  | .store m i data, (live, s) => some (live, s.store m i data)

/-- how the pool may be used: a handle in use is not allocated again, and one that is not in use is
freed through `oc_free_string` only -/
def Op.Permitted (live : List H) (s : BytePool H) : Op H → Prop
  | .alloc m _ => m ∉ live
  | .free m => m ∈ live
  | .freeString _ => True
  | .store m i data => m ∈ live ∧ i + data.length ≤ s.size m

/-- no empty string is allocated, and a handle that is freed once more was cleared before -/
def Op.Clean (live : List H) (s : BytePool H) : Op H → Prop
  | .alloc _ size => size ≠ 0
  | .freeString m => m ∈ live ∨ s.size m = 0
  | _ => True

/-- what comes about in clean histories -/
inductive Reached (poolSize : UInt32) : List H → BytePool H → Prop
  | init (bytes : Nat → UInt8) : Reached poolSize [] (init poolSize bytes)
  | step {live live' : List H} {s s' : BytePool H} (op : Op H) (h : Reached poolSize live s)
      (hp : op.Permitted live s) (hc : op.Clean live s)
      (hs : op.apply poolSize (live, s) = some (live', s')) : Reached poolSize live' s'

/-! ## what a pool is for -/

/-- the strings in use fill the array from its start on, and the rest of it is available -/
structure Tiled (poolSize : UInt32) (live : List H) (s : BytePool H) : Prop where
  holds : s.chain.Holds live
  placed : Memory.Placed s.ptr s.size 0 live
  avail : s.avail.toNat + room s.size live = poolSize.toNat

/-- a call comes back, and the strings of other handles that are in use keep their contents -/
def KeepsOthers (live : List H) (m : H) (s : BytePool H) (r : Option (BytePool H)) : Prop :=
  ∃ s', r = some s' ∧ ∀ k ∈ live, k ≠ m → s'.content k = s.content k

/-- a pool on which its callers can rely -/
structure Orderly (poolSize : UInt32) (live : List H) (s : BytePool H) : Prop where
  tiled : Tiled poolSize live s
  alloc : ∀ m size, m ∉ live → size ≠ 0 → ∃ r s', ocMmemAlloc poolSize m size s = some (r, s') ∧
    (r = 0 ↔ s.avail.toNat < size) ∧ (r = 0 → s' = s)
  free : ∀ m ∈ live, KeepsOthers live m s (ocMmemFree poolSize m s)
  freeString : ∀ m, m ∈ live ∨ s.size m = 0 → KeepsOthers live m s (ocFreeString poolSize m s)

variable {poolSize : UInt32} {live : List H} {s s' : BytePool H} {m k : H}

/-! ## what the operations do -/

theorem returned_eq_zero {n : Nat} (hn : n < 2^32) : returned n = 0 ↔ n = 0 := by
  unfold returned
  split
  · omega
  · omega

theorem length_le_card (h : s.chain.Holds live) : live.length ≤ Fintype.card H :=
  h.nodup.length_le_card

theorem moveDown_path {next : H → Option H} {x : Option H} {l : List H} {fuel : Nat} (d : Nat)
    (ptr : H → Option Nat) (h : Path next x l) (hn : l.Nodup) (hf : l.length ≤ fuel) :
    ∃ ptr', moveDown next d fuel x ptr = some ptr' ∧
      (∀ a ∈ l, ptr' a = (ptr a).map (· - d)) ∧ ∀ a, a ∉ l → ptr' a = ptr a := by
  induction l generalizing x fuel ptr with
  | nil =>
    refine ⟨ptr, ?_, fun a ha => absurd ha List.not_mem_nil, fun _ _ => rfl⟩
    rw [show x = none from h]
    cases fuel <;> rfl
  | cons b l ih =>
    obtain ⟨hbl, hnl⟩ := List.nodup_cons.mp hn
    cases fuel with
    | zero => exact absurd hf (by simp)
    | succ fuel =>
      obtain ⟨ptr', hm, hin, hout⟩ :=
        ih (update ptr b ((ptr b).map (· - d))) h.2 hnl (Nat.le_of_succ_le_succ hf)
      refine ⟨ptr', ?_, ?_, ?_⟩
      · rw [h.1]
        exact hm
      · intro a ha
        rcases List.mem_cons.mp ha with rfl | ha
        · rw [hout a hbl, update_self]
        · have hab : a ≠ b := fun he => hbl (he ▸ ha)
          rw [hin a ha, update_of_ne hab]
      · intro a ha
        obtain ⟨hab, hal⟩ := not_or.mp (mt List.mem_cons.mpr ha)
        rw [hout a hal, update_of_ne hab]

theorem content_congr (hp : s'.ptr k = s.ptr k) (hs : s'.size k = s.size k)
    (hb : s'.bytes = s.bytes) : s'.content k = s.content k := by
  unfold content
  rw [hp, hs, hb]

theorem content_of_ptr {p : Nat} (hp : s.ptr k = some p) :
    s.content k = read s.bytes p (s.size k) := by
  unfold content
  rw [hp]

/-- a string, after something was stored in one -/
theorem content_of_store {q r i : Nat} {data : List UInt8} (hq : s.ptr m = some q)
    (hr : s.ptr k = some r) :
    (s.store m i data).content k = read (write s.bytes (q + i) data) r (s.size k) := by
  unfold BytePool.store content
  rw [hq]
  dsimp only
  rw [hr]

/-- the used part of the array -/
theorem Tiled.used (h : Tiled poolSize live s) :
    (poolSize - s.avail).toNat = room s.size live := by
  have hle : s.avail ≤ poolSize := UInt32.le_iff_toNat_le.mpr (by have := h.avail; omega)
  have := h.avail
  rw [UInt32.toNat_sub_of_le _ _ hle]
  omega

/-- `m` is closed up: the handles behind it move down with their strings -/
theorem Tiled.closeUp {l r : List H} (h : Tiled poolSize (l ++ m :: r) s) :
    ∃ s', closeUp poolSize m s = some s' ∧ s'.chain = s.chain ∧ s'.size = s.size ∧
      s'.avail = s.avail ∧ Memory.Placed s'.ptr s'.size 0 (l ++ r) ∧
      ∀ k ∈ l ++ r, s'.content k = s.content k := by
  obtain ⟨hl, hm, hr⟩ := placed_append.mp h.placed
  obtain ⟨_, hnm, hdis⟩ := List.nodup_append.mp h.holds.nodup
  obtain ⟨hmr, hnr⟩ := List.nodup_cons.mp hnm
  have hpath : Path s.chain.next (s.chain.next m) r := h.holds.path.behind
  unfold BytePool.closeUp
  rw [Nat.zero_add] at hm hr
  cases hnext : s.chain.next m with
  | none =>
    rw [hnext] at hpath
    have hr0 : r = [] := by
      cases r with
      | nil => rfl
      | cons b r => cases hpath.1
    refine ⟨s, rfl, rfl, rfl, rfl, ?_, fun _ _ => rfl⟩
    rw [hr0, List.append_nil]
    exact hl
  | some n =>
    rw [hnext] at hpath
    have hn : s.ptr n = some (room s.size l + s.size m) := by
      cases r with
      | nil => cases hpath
      | cons b r =>
        cases hpath.1
        exact hr.1
    have hlen : r.length ≤ Fintype.card H := hnr.length_le_card
    obtain ⟨ptr', hmove, hin, hout⟩ :=
      moveDown_path (s.size m) s.ptr hpath hnr hlen
    have hend : (poolSize - s.avail).toNat - (room s.size l + s.size m) = room s.size r := by
      rw [h.used, room_append, room_cons]
      omega
    dsimp only
    rw [hm, hn]
    dsimp only
    rw [hmove, hend]
    have hlr : ∀ k ∈ l, k ∉ r := fun k hk hkr => hdis k hk k (List.mem_cons_of_mem m hkr) rfl
    refine ⟨_, rfl, rfl, rfl, rfl, ?_, ?_⟩
    · refine placed_append.mpr ⟨hl.congr (fun a ha => hout a (hlr a ha)) fun _ _ => rfl, ?_⟩
      rw [Nat.zero_add]
      exact hr.down hin
    · intro k hk
      rcases List.mem_append.mp hk with hkl | hkr
      · -- the strings in front of `m` stay where they are
        obtain ⟨q, hq, _, hqe⟩ := hl.within hkl
        rw [content_of_ptr hq, content_of_ptr ((hout k (hlr k hkl)).trans hq)]
        have hk : q + s.size k ≤ room s.size l := by omega
        exact read_memmove_before s.bytes _ hk
      · obtain ⟨q, hq, hqs, hqe⟩ := hr.within hkr
        obtain ⟨q, rfl⟩ := Nat.exists_eq_add_of_le hqs
        have hq' : ptr' k = some (room s.size l + q) := by
          rw [hin k hkr, hq, Option.map_some]
          exact congrArg some (by omega)
        rw [content_of_ptr hq, content_of_ptr hq']
        rw [Nat.add_right_comm]
        have hk : room s.size l + q + s.size k ≤ room s.size l + room s.size r := by omega
        exact read_memmove_down s.bytes (Nat.le_add_right _ q) hk

/-! ## each operation on a tiled pool -/

theorem toNat_ofNat_le {n : Nat} (m : UInt32) (hn : n ≤ m.toNat) : (UInt32.ofNat n).toNat = n := by
  have : UInt32.size = 2^32 := rfl
  have := m.toNat_lt
  exact UInt32.toNat_ofNat_of_lt' (by omega)

/-- what is asked for is there -/
theorem Tiled.alloc {size : Nat} (h : Tiled poolSize live s) (hm : m ∉ live)
    (hs : size ≤ s.avail.toNat) :
    ∃ s', ocMmemAlloc poolSize m size s = some (returned size, s') ∧
      Tiled poolSize (live ++ [m]) s' ∧ s'.size = update s.size m size ∧
      (∀ k, k ∉ live → k ≠ m → s'.chain.next k = s.chain.next k) ∧
      ∀ k ∈ live, s'.content k = s.content k := by
  have hlen := length_le_card h.holds
  obtain ⟨chain, hadd, hholds⟩ := Chain.add_holds h.holds hm hlen
  have hne : ∀ k ∈ live, k ≠ m := fun k hk he => hm (he ▸ hk)
  have hsize : ∀ k ∈ live, update s.size m size k = s.size k :=
    fun k hk => update_of_ne (hne k hk) _ _
  unfold ocMmemAlloc
  rw [if_neg (Nat.not_lt.mpr hs), hadd]
  refine ⟨_, rfl, ⟨hholds, ?_, ?_⟩, rfl,
    fun k hk hkm => Chain.add_next h.holds hm hlen hadd hk hkm,
    fun k hk => content_congr (update_of_ne (hne k hk) _ _) (hsize k hk) rfl⟩
  · refine placed_append.mpr ⟨h.placed.congr (fun k hk => update_of_ne (hne k hk) _ _) hsize, ?_⟩
    rw [room_congr hsize]
    refine ⟨?_, trivial⟩
    show update s.ptr m (some (poolSize - s.avail).toNat) m = _
    rw [update_self, h.used, Nat.zero_add]
  · have hav := h.avail
    have hn : (UInt32.ofNat size).toNat = size := toNat_ofNat_le s.avail hs
    have hle : UInt32.ofNat size ≤ s.avail := UInt32.le_iff_toNat_le.mpr (by omega)
    show (s.avail - UInt32.ofNat size).toNat + room (update s.size m size) (live ++ [m]) = _
    rw [UInt32.toNat_sub_of_le _ _ hle, hn, room_append, room_congr hsize, room_cons, room_nil,
      update_self]
    omega

/-- a string in use is given back -/
theorem Tiled.free {l r : List H} (h : Tiled poolSize (l ++ m :: r) s) :
    ∃ s', ocMmemFree poolSize m s = some s' ∧ Tiled poolSize (l ++ r) s' ∧ s'.size = s.size ∧
      (∀ k, k ∉ l ++ m :: r → s'.chain.next k = s.chain.next k) ∧
      ∀ k ∈ l ++ r, s'.content k = s.content k := by
  obtain ⟨t, ht, hchain, hsize, hav, hplaced, hkeep⟩ := h.closeUp
  have hholds : t.chain.Holds (l ++ m :: r) := by
    rw [hchain]
    exact h.holds
  have hlen := length_le_card hholds
  obtain ⟨chain, hrem, hholds'⟩ := Chain.remove_holds (a := m) hholds hlen
  have hml : m ∉ l := by
    intro hm
    exact (List.nodup_append.mp h.holds.nodup).2.2 m hm m List.mem_cons_self rfl
  rw [List.erase_append_right _ hml, List.erase_cons_head] at hholds'
  have hsum := h.avail
  rw [room_append, room_cons] at hsum
  unfold ocMmemFree
  rw [ht]
  dsimp only
  rw [hrem]
  refine ⟨_, rfl, ⟨hholds', hplaced, ?_⟩, hsize, ?_, fun k hk => hkeep k hk⟩
  · have hn : (UInt32.ofNat (s.size m)).toNat = s.size m :=
      toNat_ofNat_le poolSize (by omega)
    have := poolSize.toNat_lt
    show (t.avail + UInt32.ofNat (t.size m)).toNat + room t.size (l ++ r) = poolSize.toNat
    rw [hsize, hav, UInt32.toNat_add, hn, room_append, Nat.mod_eq_of_lt (by omega)]
    omega
  · intro k hk
    show chain.next k = s.chain.next k
    rw [Chain.remove_next hholds hlen hrem hk, hchain]

/-- a handle that was cleared is freed -/
theorem Tiled.free_cleared (h : Tiled poolSize live s) (hm : m ∉ live) (hs : s.size m = 0)
    (hn : s.chain.next m = none) :
    ∃ chain, ocMmemFree poolSize m s = some { s with chain } ∧ chain.Holds live ∧
      ∀ k, k ∉ live → chain.next k = s.chain.next k := by
  have hlen := length_le_card h.holds
  obtain ⟨chain, hrem, hholds⟩ := Chain.remove_holds (a := m) h.holds hlen
  rw [List.erase_of_not_mem hm] at hholds
  have hclose : BytePool.closeUp poolSize m s = some s := by
    unfold BytePool.closeUp
    rw [hn]
  refine ⟨chain, ?_, hholds, fun k hk => Chain.remove_next h.holds hlen hrem hk⟩
  have hz : s.avail + UInt32.ofNat 0 = s.avail := UInt32.add_zero s.avail
  unfold ocMmemFree
  rw [hclose]
  dsimp only
  rw [hrem, hs, hz]

theorem content_clear (hk : k ≠ m) : (clear m s).content k = s.content k :=
  content_congr (update_of_ne hk _ _) (update_of_ne hk _ _) rfl

theorem Tiled.clear (h : Tiled poolSize live s) (hm : m ∉ live) :
    Tiled poolSize live (clear m s) := by
  have hne : ∀ k ∈ live, k ≠ m := fun k hk he => hm (he ▸ hk)
  have hsize : ∀ k ∈ live, update s.size m 0 k = s.size k :=
    fun k hk => update_of_ne (hne k hk) _ _
  refine ⟨h.holds.clear hm, h.placed.congr (fun k hk => update_of_ne (hne k hk) _ _) hsize, ?_⟩
  show s.avail.toNat + room (update s.size m 0) live = poolSize.toNat
  rw [room_congr hsize]
  exact h.avail

theorem Tiled.store (h : Tiled poolSize live s) (i : Nat) (data : List UInt8) :
    Tiled poolSize live (s.store m i data) := by
  unfold BytePool.store
  split
  · exact h
  · exact ⟨h.holds, h.placed, h.avail⟩

/-- what is stored in a string does not reach into another one -/
theorem Tiled.content_store (h : Tiled poolSize live s) (hm : m ∈ live) (hk : k ∈ live)
    (hkm : k ≠ m) {i : Nat} {data : List UInt8} (hi : i + data.length ≤ s.size m) :
    (s.store m i data).content k = s.content k := by
  obtain ⟨q, r, hq, hr, hd⟩ := h.placed.disjoint hm hk (Ne.symm hkm)
  have hout : r + s.size k ≤ q + i ∨ q + i + data.length ≤ r := by omega
  rw [content_of_store hq hr, content_of_ptr hr]
  exact read_write_disjoint s.bytes (q + i) data r (s.size k) hout

/-! ## histories -/

/-- what clean histories keep -/
structure Kept (poolSize : UInt32) (live : List H) (s : BytePool H) : Prop
    extends Tiled poolSize live s where
  sized : ∀ m ∈ live, s.size m ≠ 0
  cleared : ∀ m, m ∉ live → s.size m = 0 → s.chain.next m = none

theorem Kept.init (bytes : Nat → UInt8) : Kept poolSize [] (init poolSize bytes : BytePool H) where
  holds := ⟨rfl, List.nodup_nil⟩
  placed := trivial
  avail := rfl
  sized := fun _ hm => absurd hm List.not_mem_nil
  cleared := fun _ _ _ => rfl

theorem Kept.alloc {size : Nat} (h : Kept poolSize live s) (hm : m ∉ live) (hs : size ≠ 0)
    (hav : size ≤ s.avail.toNat) :
    ∃ s', ocMmemAlloc poolSize m size s = some (returned size, s') ∧
      Kept poolSize (live ++ [m]) s' ∧ s'.size m = size ∧
      ∀ k ∈ live, s'.content k = s.content k := by
  obtain ⟨s', hr, ht, hsize, hnext, hkeep⟩ := h.toTiled.alloc hm hav
  refine ⟨s', hr, { ht with sized := ?_, cleared := ?_ }, ?_, hkeep⟩
  · intro k hk
    rw [hsize]
    by_cases hkm : k = m
    · rw [hkm, update_self]
      exact hs
    · rw [update_of_ne hkm]
      rcases List.mem_append.mp hk with hk | hk
      · exact h.sized k hk
      · exact absurd (List.mem_singleton.mp hk) hkm
  · intro k hk hz
    obtain ⟨hkl, hkm⟩ := not_or.mp (mt List.mem_append.mpr hk)
    have hkm : k ≠ m := fun he => hkm (List.mem_singleton.mpr he)
    rw [hsize, update_of_ne hkm] at hz
    rw [hnext k hkl hkm]
    exact h.cleared k hkl hz
  · rw [hsize, update_self]

/-- a handle in use stands at one place of the list -/
theorem Kept.split (h : Kept poolSize live s) (hm : m ∈ live) :
    ∃ l r, live = l ++ m :: r ∧ live.erase m = l ++ r ∧ m ∉ l ++ r := by
  obtain ⟨l, r, rfl⟩ := List.append_of_mem hm
  have hn := h.holds.nodup
  have hml : m ∉ l := by
    intro hm
    exact (List.nodup_append.mp hn).2.2 m hm m List.mem_cons_self rfl
  have he : (l ++ m :: r).erase m = l ++ r := by
    rw [List.erase_append_right _ hml, List.erase_cons_head]
  refine ⟨l, r, rfl, he, ?_⟩
  rw [← he]
  exact hn.not_mem_erase

theorem Kept.free (h : Kept poolSize live s) (hm : m ∈ live) :
    ∃ s', ocMmemFree poolSize m s = some s' ∧ Kept poolSize (live.erase m) s' ∧
      ∀ k ∈ live, k ≠ m → s'.content k = s.content k := by
  obtain ⟨l, r, rfl, he, _⟩ := h.split hm
  obtain ⟨s', hs, ht, hsize, hnext, hkeep⟩ := h.toTiled.free
  have hmem : ∀ k, k ∈ l ++ m :: r → k ≠ m → k ∈ l ++ r := by
    intro k hk hkm
    rw [← he]
    exact (List.mem_erase_of_ne hkm).mpr hk
  refine ⟨s', hs, ?_, fun k hk hkm => hkeep k (hmem k hk hkm)⟩
  rw [he]
  refine { ht with sized := ?_, cleared := ?_ }
  · intro k hk
    rw [hsize]
    rw [← he] at hk
    exact h.sized k (List.mem_of_mem_erase hk)
  · intro k hk hz
    rw [hsize] at hz
    have hkl : k ∉ l ++ m :: r := by
      intro hkl
      exact h.sized k hkl hz
    rw [hnext k hkl]
    exact h.cleared k hkl hz

theorem Kept.clear (h : Kept poolSize live s) (hm : m ∉ live) :
    Kept poolSize live (clear m s) := by
  refine { h.toTiled.clear hm with sized := ?_, cleared := ?_ }
  · intro k hk
    have hkm : k ≠ m := fun he => hm (he ▸ hk)
    show update s.size m 0 k ≠ 0
    rw [update_of_ne hkm]
    exact h.sized k hk
  · intro k hk hz
    show update s.chain.next m none k = none
    by_cases hkm : k = m
    · rw [hkm, update_self]
    · change update s.size m 0 k = 0 at hz
      rw [update_of_ne hkm] at hz ⊢
      exact h.cleared k hk hz

theorem Kept.freeString (h : Kept poolSize live s) (hm : m ∈ live ∨ s.size m = 0) :
    ∃ s', ocFreeString poolSize m s = some s' ∧ Kept poolSize (live.erase m) s' ∧
      ∀ k ∈ live, k ≠ m → s'.content k = s.content k := by
  unfold ocFreeString
  by_cases hml : m ∈ live
  · obtain ⟨s', hs, hk, hkeep⟩ := h.free hml
    rw [hs]
    refine ⟨_, rfl, hk.clear h.holds.nodup.not_mem_erase, ?_⟩
    intro k hkl hkm
    rw [content_clear hkm]
    exact hkeep k hkl hkm
  · have hz := hm.resolve_left hml
    obtain ⟨chain, hs, hholds, hnext⟩ := h.toTiled.free_cleared hml hz (h.cleared m hml hz)
    have hk : Kept poolSize live { s with chain } :=
      { holds := hholds
        placed := h.placed
        avail := h.avail
        sized := h.sized
        cleared := fun k hk hz => (hnext k hk).trans (h.cleared k hk hz) }
    rw [hs, List.erase_of_not_mem hml]
    exact ⟨_, rfl, hk.clear hml, fun k _ hkm => content_clear hkm⟩

/-- what is stored in a string of the list stays within the pool -/
theorem Kept.store (h : Kept poolSize live s) (i : Nat) (data : List UInt8) :
    Kept poolSize live (s.store m i data) := by
  refine { h.toTiled.store i data with sized := ?_, cleared := ?_ }
  · unfold BytePool.store
    split
    · exact h.sized
    · exact h.sized
  · unfold BytePool.store
    split
    · exact h.cleared
    · exact h.cleared

theorem Kept.apply {live' : List H} {op : Op H} (h : Kept poolSize live s)
    (hp : op.Permitted live s) (hc : op.Clean live s)
    (hs : op.apply poolSize (live, s) = some (live', s')) : Kept poolSize live' s' := by
  cases op with
  | alloc m size =>
    by_cases hav : s.avail.toNat < size
    · have hr : ocMmemAlloc poolSize m size s = some (0, s) := if_pos hav
      simp only [Op.apply, hr, Option.map_some, if_true] at hs
      cases hs
      exact h
    · have hav := Nat.le_of_not_lt hav
      obtain ⟨t, hr, hk, _⟩ := h.alloc hp hc hav
      have hne : returned size ≠ 0 := by
        have := s.avail.toNat_lt
        rw [Ne, returned_eq_zero (by omega)]
        exact hc
      simp only [Op.apply, hr, Option.map_some, if_neg hne] at hs
      cases hs
      exact hk
  | free m =>
    obtain ⟨t, hr, hk, _⟩ := h.free hp
    simp only [Op.apply, hr, Option.map_some] at hs
    cases hs
    exact hk
  | freeString m =>
    obtain ⟨t, hr, hk, _⟩ := h.freeString hc
    simp only [Op.apply, hr, Option.map_some] at hs
    cases hs
    exact hk
  | store _ i data =>
    cases hs
    exact h.store i data

theorem Reached.kept (h : Reached poolSize live s) : Kept poolSize live s := by
  induction h with
  | init bytes => exact Kept.init bytes
  | step op _ hp hc hs ih => exact ih.apply hp hc hs

theorem Kept.orderly (h : Kept poolSize live s) : Orderly poolSize live s where
  tiled := h.toTiled
  alloc := by
    intro m size hm hz
    by_cases hav : s.avail.toNat < size
    · exact ⟨0, s, if_pos hav, ⟨fun _ => hav, fun _ => rfl⟩, fun _ => rfl⟩
    · obtain ⟨s', hr, _⟩ := h.alloc hm hz (Nat.le_of_not_lt hav)
      have hne : returned size ≠ 0 := by
        have := s.avail.toNat_lt
        rw [Ne, returned_eq_zero (by omega)]
        exact hz
      exact ⟨_, s', hr, ⟨fun h0 => absurd h0 hne, fun hlt => absurd hlt hav⟩, fun h0 => absurd h0 hne⟩
  free := by
    intro m hm
    obtain ⟨s', hs, _, hkeep⟩ := h.free hm
    exact ⟨s', hs, hkeep⟩
  freeString := by
    intro m hm
    obtain ⟨s', hs, _, hkeep⟩ := h.freeString hm
    exact ⟨s', hs, hkeep⟩

/-- **The byte pool.**  In every history in which no empty string is allocated and no handle is
freed again that was not cleared, the strings in use tile the array, an allocation fails exactly
when there is not enough room and then changes nothing, and what is freed leaves the other strings
as they are. -/
theorem reached_orderly (poolSize : UInt32) (live : List H) (s : BytePool H)
    (h : Reached poolSize live s) : Orderly poolSize live s := h.kept.orderly

/-- a string that is made holds what it was made of, and the terminator -/
theorem Kept.newString (h : Kept poolSize live s) (hm : m ∉ live) (str : List UInt8)
    (hav : str.length < s.avail.toNat) :
    ∃ s', ocNewString poolSize m str s = some s' ∧ Kept poolSize (live ++ [m]) s' ∧
      s'.content m = str ++ [0] ∧ ∀ k ∈ live, s'.content k = s.content k := by
  obtain ⟨t, hr, hk, hsize, hkeep⟩ := h.alloc hm (Nat.succ_ne_zero str.length) hav
  have hmt : m ∈ live ++ [m] := List.mem_append_right live (List.mem_singleton.mpr rfl)
  have hlen : (str ++ [(0 : UInt8)]).length = t.size m := by
    rw [hsize, List.length_append, List.length_singleton]
  have hne : returned (str.length + 1) ≠ 0 := by
    have := s.avail.toNat_lt
    rw [Ne, returned_eq_zero (by omega)]
    exact Nat.succ_ne_zero str.length
  refine ⟨t.store m 0 (str ++ [0]), ?_, hk.store 0 _, ?_, ?_⟩
  · unfold ocNewString
    rw [hr]
    exact if_neg hne
  · obtain ⟨q, hq, _⟩ := hk.placed.within hmt
    rw [content_of_store hq hq, ← hlen, Nat.add_zero, read_write_self]
  · intro k hkl
    have hkm : k ≠ m := fun he => hm (he ▸ hkl)
    have hin : 0 + (str ++ [(0 : UInt8)]).length ≤ t.size m := by omega
    rw [hk.toTiled.content_store hmt (List.mem_append_left [m] hkl) hkm hin]
    exact hkeep k hkl

/-- an empty string is linked, and reported as a failure; and a handle that was given back by
`_oc_mmem_free` itself counts twice when it is freed again -/
theorem empty_string_linked :
    ((ocMmemAlloc 1800 (0 : Fin 2) 0 (init 1800 fun _ => 0)).map
        fun r => (r.1, r.2.avail, r.2.chain.head)) = some (0, 1800, some 0) ∧
      ((((Op.alloc (0 : Fin 2) 5).apply 1800 ([], init 1800 fun _ => 0)).bind
          ((Op.free 0).apply 1800)).bind ((Op.freeString 0).apply 1800)).map
        (fun r => (r.1, r.2.avail)) = some ([], 1805) := by
  decide

theorem reached_orderly_alloc :
    ∃ s, (Op.alloc (0 : Fin 2) 5).apply 1800 ([], init 1800 fun _ => 0) = some ([0], s) ∧
      Orderly 1800 [0] s :=
  ⟨_, rfl, reached_orderly _ _ _
    (.step (.alloc 0 5) (.init fun _ => 0) List.not_mem_nil (Nat.succ_ne_zero 4) rfl)⟩

end

end BytePool
end Coap
