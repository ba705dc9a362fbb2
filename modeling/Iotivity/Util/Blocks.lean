import Iotivity.Lib.FirstFit

/-!
# Pools of blocks: `oc_memb.c`

A pool has `num` blocks of `size` bytes and a count for each of them.  Without `OC_DYNAMIC_ALLOCATION` the
blocks are an array at `mem`; else `mem` is an array of pointers, `_oc_memb_alloc` stores in it what
`calloc` has returned, and `_oc_memb_free` leaves it there.  A pointer is a number, 0 is `NULL`, and offsets
into an array are exact.

* `Sound`              the live blocks are those of the slots with a count, and none of them is in a slot in
                       front of its own;
* `Sound.alloc`, `Sound.free`   what the operations do to the live blocks;
* `pool_runs`          every run of a pool.
-/

namespace Memb
open Function FirstFit

/-! ## the pool -/

/-- what `mem` points to: the blocks, or pointers to them -/
inductive Mem where
  | blocks (address : Nat)
  | pointers (slot : Nat → Nat)

/-- `struct oc_memb`; of `buffers_avail_cb`, whether it is set -/
structure OcMemb where
  size : Nat
  num : Nat
  count : Nat → Nat
  mem : Mem
  buffersAvailCb : Bool

/-- `OC_DYNAMIC_ALLOCATION` -/
def OcMemb.dynamic (m : OcMemb) : Bool :=
  match m.mem with
  | .blocks _ => false
  | .pointers _ => true

/-- what `_oc_memb_free` compares with the pointer -/
def OcMemb.slot (m : OcMemb) (i : Nat) : Nat :=
  match m.mem with
  | .blocks address => address + i * m.size
  | .pointers slot => slot i

/-- the slot that the loop of `_oc_memb_alloc` stops at -/
def OcMemb.freeSlot (m : OcMemb) : Option Nat := (List.range m.num).find? fun i => m.count i == 0

/-- `_oc_memb_alloc`, when `calloc` returns this pointer -/
def ocMembAlloc (calloc : Nat) (m : OcMemb) : Nat × OcMemb :=
  if 0 < m.num then
    match m.freeSlot with
    | none => (0, m)
    | some i =>
      let count := update m.count i (m.count i + 1)
      match m.mem with
      | .blocks address => (address + i * m.size, { m with count })
      | .pointers slot => (calloc, { m with count, mem := .pointers (update slot i calloc) })
  else if m.dynamic then (calloc, m)
  else (0, m)

/-- `oc_memb_numfree` -/
def ocMembNumfree (m : OcMemb) : Nat := (List.range m.num).countP fun i => m.count i == 0

/-- the loop of `_oc_memb_free` -/
def OcMemb.unref (m : OcMemb) (ptr : Nat) : OcMemb :=
  match (List.range m.num).find? fun i => m.slot i == ptr with
  | none => m
  | some i => if 0 < m.count i then { m with count := update m.count i (m.count i - 1) } else m

/-- `_oc_memb_free`: what `buffers_avail_cb` is told, and the pool; it returns 0 -/
def ocMembFree (ptr : Nat) (m : OcMemb) : Option Nat × OcMemb :=
  let m := m.unref ptr
  (if m.buffersAvailCb then some (ocMembNumfree m) else none, m)

/-- `OC_MEMB` without `OC_DYNAMIC_ALLOCATION`, and `OC_MEMB_FIXED` with it -/
inductive Declared : OcMemb → Prop where
  | ocMemb (size num address : Nat) (cb : Bool) (hsize : 0 < size) (hnum : 0 < num) (ha : 0 < address) :
      Declared ⟨size, num, fun _ => 0, .blocks address, cb⟩
  | ocMembFixed (size num : Nat) (cb : Bool) (hsize : 0 < size) (hnum : 0 < num) :
      Declared ⟨size, num, fun _ => 0, .pointers fun _ => 0, cb⟩

/-! ## runs -/

/-- a pool, and its live blocks behind their slots -/
structure State where
  memb : OcMemb
  live : List (Nat × Nat)

def State.blocks (s : State) : List Nat := s.live.map Prod.snd

inductive Call where
  | alloc (calloc : Nat)
  | free (ptr : Nat)
deriving DecidableEq

/-- the slot whose count is another one -/
def changed (m m' : OcMemb) : Option Nat := (List.range m.num).find? fun i => m.count i != m'.count i

/-- A block is live from the call that returns it, with the slot that it takes, until it is freed. -/
def State.step (s : State) : Call → State
  | .alloc calloc =>
    let r := ocMembAlloc calloc s.memb
    ⟨r.2, if r.1 = 0 then s.live else ((changed s.memb r.2).toList.map fun i => (i, r.1)) ++ s.live⟩
  | .free ptr => ⟨(ocMembFree ptr s.memb).2, s.live.filter fun b => b.2 ≠ ptr⟩

/-- `calloc` succeeds, with an address that is not one of a live block; live blocks are freed -/
def Call.Lawful (s : State) : Call → Prop
  | .alloc calloc => s.memb.dynamic = true → calloc ≠ 0 ∧ calloc ∉ s.blocks
  | .free ptr => ptr ∈ s.blocks

def Lawful : State → List Call → Prop
  | _, [] => True
  | s, c :: calls => c.Lawful s ∧ Lawful (s.step c) calls

instance (s : State) : (c : Call) → Decidable (c.Lawful s)
  | .alloc calloc =>
    inferInstanceAs (Decidable (s.memb.dynamic = true → calloc ≠ 0 ∧ calloc ∉ s.blocks))
  | .free ptr => inferInstanceAs (Decidable (ptr ∈ s.blocks))

instance decidableLawful : (s : State) → (calls : List Call) → Decidable (Lawful s calls)
  | _, [] => inferInstanceAs (Decidable True)
  | s, c :: calls => @instDecidableAnd _ _ _ (decidableLawful (s.step c) calls)

/-- the blocks that are not live are free -/
def Counted (s : State) : Prop := ocMembNumfree s.memb + s.live.length = s.memb.num

/-- What is asked of a call: a block that is returned was not live and takes one slot, there is none if
`num` blocks are live and only then, and a block that is freed gives back the one slot that it has taken. -/
def StepKept (s : State) : Call → Prop
  | .alloc calloc =>
    let r := ocMembAlloc calloc s.memb
    r.1 ∉ s.blocks ∧ (r.1 = 0 ↔ s.live.length = s.memb.num) ∧
      (r.1 ≠ 0 → ∃ i < s.memb.num, s.memb.count i = 0 ∧ r.2.count = update s.memb.count i 1 ∧
        (s.step (.alloc calloc)).live = (i, r.1) :: s.live)
  | .free ptr =>
    ∃ i < s.memb.num, (∀ j, (j, ptr) ∈ s.live ↔ j = i) ∧ s.memb.count i = 1 ∧
      (ocMembFree ptr s.memb).2.count = update s.memb.count i 0

def Kept : State → List Call → Prop
  | s, [] => Counted s
  | s, c :: calls => Counted s ∧ StepKept s c ∧ Kept (s.step c) calls

/-! ## the slots -/

/-- the slots with a count -/
def OcMemb.used (m : OcMemb) (i : Nat) : Bool := m.count i != 0

theorem freeSlot_eq (m : OcMemb) : m.freeSlot = firstFree m.num m.used := by
  unfold OcMemb.freeSlot firstFree OcMemb.used
  simp only [bne, Bool.not_not]

theorem numfree_eq (m : OcMemb) : ocMembNumfree m = (List.range m.num).countP fun i => !m.used i := by
  unfold ocMembNumfree OcMemb.used
  simp only [bne, Bool.not_not]

variable {m : OcMemb} {i : Nat}

theorem used_update {m' : OcMemb} {v : Nat} (h : m'.count = update m.count i v) :
    m'.used = update m.used i (v != 0) := by
  funext j
  unfold OcMemb.used
  rw [h]
  by_cases hj : j = i
  · rw [hj, update_self, update_self]
  · rw [update_of_ne hj, update_of_ne hj]

/-- Blocks of a static pool are apart and not `NULL`. -/
structure Fit (m : OcMemb) : Prop where
  num_pos : 0 < m.num
  apart : m.dynamic = false → ∀ i j, m.slot i = m.slot j → i = j
  nonnull : m.dynamic = false → ∀ i, m.slot i ≠ 0

theorem Declared.fit (h : Declared m) : Fit m := by
  cases h with
  | ocMemb size num address cb hsize hnum ha =>
    refine ⟨hnum, fun _ i j he => ?_, fun _ i => ?_⟩
    · exact Nat.eq_of_mul_eq_mul_right hsize (Nat.add_left_cancel he)
    · exact Nat.ne_of_gt (Nat.add_pos_left ha _)
  | ocMembFixed size num cb hsize hnum => exact ⟨hnum, nofun, nofun⟩

theorem Declared.count (h : Declared m) (i : Nat) : m.count i = 0 := by
  cases h <;> rfl

/-! ## one call -/

theorem ocMembAlloc_none (calloc : Nat) (hn : 0 < m.num) (h : m.freeSlot = none) :
    ocMembAlloc calloc m = (0, m) := by
  rw [ocMembAlloc, if_pos hn, h]

/-- a free slot gets the block, with a count; in a static pool it has been there before -/
theorem ocMembAlloc_some (calloc : Nat) (hn : 0 < m.num) (h : m.freeSlot = some i) :
    ∃ b m', ocMembAlloc calloc m = (b, m') ∧ b = (if m.dynamic then calloc else m.slot i) ∧
      m'.count = update m.count i (m.count i + 1) ∧ m'.slot = update m.slot i b ∧
      m'.num = m.num ∧ m'.dynamic = m.dynamic := by
  rw [ocMembAlloc, if_pos hn, h]
  obtain ⟨size, num, count, mem, cb⟩ := m
  cases mem with
  | blocks address => exact ⟨_, _, rfl, rfl, rfl, (update_eq_self i _).symm, rfl, rfl⟩
  | pointers slot => exact ⟨_, _, rfl, rfl, rfl, rfl, rfl, rfl⟩

theorem unref_some {ptr : Nat} (h : lookup m.num m.slot ptr = some i) (hc : m.count i = 1) :
    (ocMembFree ptr m).2 = { m with count := update m.count i 0 } := by
  have hfind : ((List.range m.num).find? fun i => m.slot i == ptr) = some i := h
  show m.unref ptr = _
  rw [OcMemb.unref, hfind]
  show (if 0 < m.count i then _ else m) = _
  rw [hc, if_pos Nat.zero_lt_one]

theorem changed_eq {m' : OcMemb} {v : Nat} (hi : i < m.num) (hc : m'.count = update m.count i v)
    (hv : m.count i ≠ v) : changed m m' = some i := by
  refine List.find?_range_eq_some.mpr ⟨?_, List.mem_range.mpr hi, fun j hj => ?_⟩
  · rw [hc, update_self]
    exact bne_iff_ne.mpr hv
  · rw [hc, update_of_ne (Nat.ne_of_lt hj), bne_self_eq_false, Bool.not_false]

theorem Fit.congr {m' : OcMemb} (h : Fit m) (hn : m'.num = m.num) (hd : m'.dynamic = m.dynamic)
    (hs : m.dynamic = false → m'.slot = m.slot) : Fit m' where
  num_pos := by rw [hn]; exact h.num_pos
  apart hdyn i j he := by
    rw [hd] at hdyn
    rw [hs hdyn] at he
    exact h.apart hdyn i j he
  nonnull hdyn i := by
    rw [hd] at hdyn
    rw [hs hdyn]
    exact h.nonnull hdyn i

/-! ## the live blocks -/

/-- The live blocks are those of the slots with a count, which is 1. -/
structure Sound (s : State) : Prop where
  fit : Fit s.memb
  holds : Holds s.memb.num s.memb.used s.memb.slot s.live
  count_le : ∀ i, s.memb.count i ≤ 1
  nonnull : 0 ∉ s.blocks

variable {s : State}

theorem mem_blocks {ptr : Nat} : ptr ∈ s.blocks ↔ ∃ i, (i, ptr) ∈ s.live := by
  rw [State.blocks, List.mem_map]
  constructor
  · rintro ⟨b, hb, rfl⟩
    exact ⟨b.1, hb⟩
  · exact fun ⟨i, hi⟩ => ⟨(i, ptr), hi, rfl⟩

theorem Sound.counted (h : Sound s) : Counted s := by
  rw [Counted, numfree_eq]
  exact h.holds.free

theorem Sound.start (h : Declared m) : Sound ⟨m, []⟩ where
  fit := h.fit
  holds := Holds.nil fun i _ => by rw [OcMemb.used, h.count i]; rfl
  count_le i := by rw [h.count i]; exact Nat.zero_le 1
  nonnull := List.not_mem_nil

/-- the block for a free slot is none of the live ones -/
theorem Sound.fresh (h : Sound s) {calloc b : Nat} (hl : (Call.alloc calloc).Lawful s)
    (hf : s.memb.freeSlot = some i) (hb : b = if s.memb.dynamic then calloc else s.memb.slot i) :
    b ≠ 0 ∧ b ∉ s.blocks := by
  cases hd : s.memb.dynamic with
  | true =>
    rw [hd, if_pos rfl] at hb
    rw [hb]
    exact hl hd
  | false =>
    rw [hd, if_neg Bool.false_ne_true] at hb
    rw [hb]
    refine ⟨h.fit.nonnull hd i, fun hm => ?_⟩
    obtain ⟨j, hj⟩ := mem_blocks.mp hm
    obtain ⟨-, hu, he⟩ := (h.holds.mem_iff j _).mp hj
    rw [freeSlot_eq] at hf
    rw [h.fit.apart hd j i he, (firstFree_eq_some hf).2.1] at hu
    cases hu

theorem Sound.alloc (h : Sound s) {calloc : Nat} (hl : (Call.alloc calloc).Lawful s) :
    StepKept s (.alloc calloc) ∧ Sound (s.step (.alloc calloc)) := by
  have hfull := h.holds.full_iff
  rw [← freeSlot_eq] at hfull
  cases hf : s.memb.freeSlot with
  | none =>
    have hr := ocMembAlloc_none calloc h.fit.num_pos hf
    have hlen := hfull.mp hf
    have hstep : s.step (.alloc calloc) = s := by rw [State.step, hr]; rfl
    rw [hstep, StepKept, hr]
    exact ⟨⟨h.nonnull, iff_of_true rfl hlen, fun hc => absurd rfl hc⟩, h⟩
  | some i =>
    obtain ⟨b, m', hr, hb, hcount, hslot, hnum, hdyn⟩ := ocMembAlloc_some calloc h.fit.num_pos hf
    obtain ⟨hb0, hfresh⟩ := h.fresh hl hf hb
    have hlen : s.live.length ≠ s.memb.num := fun hc => by
      rw [hfull.mpr hc] at hf
      cases hf
    rw [freeSlot_eq] at hf
    obtain ⟨hi, hu, -⟩ := firstFree_eq_some hf
    have hzero : s.memb.count i = 0 := by simpa [OcMemb.used] using hu
    rw [hzero] at hcount
    have hstep : s.step (.alloc calloc) = ⟨m', (i, b) :: s.live⟩ := by
      rw [State.step, hr]
      show State.mk m' (if b = 0 then _ else _) = _
      rw [if_neg hb0, changed_eq hi hcount (by rw [hzero]; exact Nat.zero_ne_one)]
      rfl
    refine ⟨?_, ?_⟩
    · rw [StepKept, hr, hstep]
      exact ⟨hfresh, iff_of_false hb0 hlen, fun _ => ⟨i, hi, hzero, hcount, rfl⟩⟩
    · rw [hstep]
      have hused : m'.used = update s.memb.used i true := used_update hcount
      refine ⟨h.fit.congr hnum hdyn fun hd => ?_, ?_, fun j => ?_, fun hm => ?_⟩
      · rw [hd, if_neg Bool.false_ne_true] at hb
        rw [hslot, hb, update_eq_self]
      · show Holds m'.num m'.used m'.slot ((i, b) :: s.live)
        rw [hnum, hused, hslot]
        exact h.holds.put hf fun j hj => hfresh (mem_blocks.mpr ⟨j, hj⟩)
      · show m'.count j ≤ 1
        rw [hcount]
        by_cases hj : j = i
        · rw [hj, update_self]
        · rw [update_of_ne hj]
          exact h.count_le j
      · rcases List.mem_cons.mp hm with hm | hm
        · exact hb0 hm.symm
        · exact h.nonnull hm

theorem Sound.free (h : Sound s) {ptr : Nat} (hl : (Call.free ptr).Lawful s) :
    StepKept s (.free ptr) ∧ Sound (s.step (.free ptr)) := by
  obtain ⟨i, hm⟩ := mem_blocks.mp hl
  obtain ⟨hi, hu, -⟩ := (h.holds.mem_iff i ptr).mp hm
  have hone : s.memb.count i = 1 := by
    have hne : s.memb.count i ≠ 0 := bne_iff_ne.mp hu
    have hle := h.count_le i
    omega
  have hr := unref_some (h.holds.lookup hm) hone
  have hstep : s.step (.free ptr) =
      ⟨{ s.memb with count := update s.memb.count i 0 }, s.live.filter fun b => b.2 ≠ ptr⟩ := by
    rw [State.step, hr]
  refine ⟨⟨i, hi, fun j => ⟨fun hj => h.holds.slot_inj hj hm, fun hj => hj ▸ hm⟩, hone, by rw [hr]⟩, ?_⟩
  rw [hstep]
  refine ⟨h.fit.congr rfl rfl fun _ => rfl, ?_, fun j => ?_, fun hz => ?_⟩
  · have hused : OcMemb.used { s.memb with count := update s.memb.count i 0 } =
        update s.memb.used i false := used_update (v := 0) rfl
    show Holds s.memb.num (OcMemb.used _) s.memb.slot _
    rw [hused]
    exact h.holds.release hm
  · show update s.memb.count i 0 j ≤ 1
    by_cases hj : j = i
    · rw [hj, update_self]
      exact Nat.zero_le 1
    · rw [update_of_ne hj]
      exact h.count_le j
  · obtain ⟨j, hj⟩ := mem_blocks.mp hz
    exact h.nonnull (mem_blocks.mpr ⟨j, (List.mem_filter.mp hj).1⟩)

/-- `buffers_avail_cb` is told how many blocks can be had -/
theorem Sound.told (h : Sound s) {ptr n : Nat} (hl : (Call.free ptr).Lawful s)
    (ht : (ocMembFree ptr s.memb).1 = some n) : n + (s.step (.free ptr)).live.length = s.memb.num := by
  have hcounted := (h.free hl).2.counted
  have hnum : (s.step (.free ptr)).memb.num = s.memb.num := by
    show (s.memb.unref ptr).num = _
    unfold OcMemb.unref
    split
    next => rfl
    next => split <;> rfl
  rw [Counted, hnum] at hcounted
  rw [ocMembFree] at ht
  dsimp only at ht
  split at ht
  next => rw [← Option.some.inj ht]; exact hcounted
  next => cases ht

theorem Sound.step (h : Sound s) {c : Call} (hl : c.Lawful s) : StepKept s c ∧ Sound (s.step c) := by
  cases c with
  | alloc calloc => exact h.alloc hl
  | free ptr => exact h.free hl

/-! ## runs of calls -/

theorem Sound.run {calls : List Call} (h : Sound s) (hl : Lawful s calls) : Kept s calls := by
  induction calls generalizing s with
  | nil => exact h.counted
  | cons c calls ih =>
    obtain ⟨hkept, hnext⟩ := h.step hl.1
    exact ⟨h.counted, hkept, ih hnext hl.2⟩

/-- **Pools of blocks.**  In every run of a pool that is declared, with or without `OC_DYNAMIC_ALLOCATION`,
no live block is returned, there is no block if and only if `num` are live, a block that is freed gives back
its own slot and no other, and `oc_memb_numfree` counts the blocks that are not live. -/
theorem pool_runs (m : OcMemb) (h : Declared m) (calls : List Call) (hl : Lawful ⟨m, []⟩ calls) :
    Kept ⟨m, []⟩ calls :=
  (Sound.start h).run hl

/-- The second slot still has the address that the first one holds when it is freed. -/
theorem pool_runs_stale :
    Kept ⟨⟨4, 2, fun _ => 0, .pointers fun _ => 0, true⟩, []⟩
      [.alloc 8, .alloc 16, .free 16, .free 8, .alloc 16, .free 16, .alloc 16, .alloc 8, .alloc 24] :=
  pool_runs _ (.ocMembFixed 4 2 true (by decide) (by decide)) _ (by decide)

end Memb
