import Iotivity.Lib.Memory
import Iotivity.Payload.Parse

/-!
# Arrays of byte strings: `oc_helpers.c`

An array has `n` slots of `STRING_ARRAY_ITEM_MAX_LEN` bytes.  The first byte of a slot is the length of
the item, and 0 says that the slot is free.  What is compared with the slot is `strlen(str)`, as in the
function for text strings, and not the length of the byte string.

* `accepts_keeps`     what an accepted item leaves alone;
* `stepKept_iff`      the calls that keep the items apart;
* `keepsApart_iff`    the runs.
-/

namespace ByteStringArray
open Memory Payload

abbrev Bytes := List UInt8

/-! ## the operations -/

/-- `index * STRING_ARRAY_ITEM_MAX_LEN` -/
def pos (dynamic : Bool) (index : Nat) : Nat := index * stringArrayItemMaxLen dynamic

/-- `strlen(str) >= STRING_ARRAY_ITEM_MAX_LEN`, where `str` is the memory from the argument on -/
def strlenGe (dynamic : Bool) (str : Nat → UInt8) : Bool :=
  (List.range (stringArrayItemMaxLen dynamic)).all fun i => str i != 0

/-- `_oc_alloc_string_array` -/
def ocAllocStringArray (dynamic : Bool) (mem : Nat → UInt8) (size : Nat) : Nat → UInt8 :=
  (List.range size).foldl (fun mem i => write mem (pos dynamic i) [0]) mem

/-- `oc_byte_string_array_get_item_size` -/
def getItemSize (dynamic : Bool) (mem : Nat → UInt8) (index : Nat) : UInt8 := mem (pos dynamic index)

/-- `oc_byte_string_array_get_item`, the address -/
def getItem (dynamic : Bool) (index : Nat) : Nat := pos dynamic index + 1

/-- `_oc_copy_byte_string_to_array` -/
def ocCopyByteStringToArray (dynamic : Bool) (mem str : Nat → UInt8) (strLen index : Nat) :
    Bool × (Nat → UInt8) :=
  if strlenGe dynamic str then (false, mem)
  else
    let mem := write mem (pos dynamic index) [UInt8.ofNat strLen]
    (true, write mem (pos dynamic index + 1) (read str 0 strLen))

/-- the slot at which the loop of `_oc_byte_string_array_add_item` stops -/
def freeSlot (dynamic : Bool) (n : Nat) (mem : Nat → UInt8) : Option Nat :=
  (List.range n).find? fun i => getItemSize dynamic mem i == 0

/-- `_oc_byte_string_array_add_item` -/
def ocByteStringArrayAddItem (dynamic : Bool) (n : Nat) (mem str : Nat → UInt8) (strLen : Nat) :
    Bool × (Nat → UInt8) :=
  match freeSlot dynamic n mem with
  | none => (false, mem)
  | some i => ocCopyByteStringToArray dynamic mem str strLen i

/-- the calls, with the memory from their argument on -/
inductive Call where
  | addItem (str : Nat → UInt8) (strLen : Nat)
  | setItem (str : Nat → UInt8) (strLen index : Nat)

namespace Call

def str : Call → Nat → UInt8
  | addItem str _ => str
  | setItem str _ _ => str

def strLen : Call → Nat
  | addItem _ strLen => strLen
  | setItem _ strLen _ => strLen

/-- the byte string -/
def item (c : Call) : Bytes := read c.str 0 c.strLen

def run (dynamic : Bool) (n : Nat) (mem : Nat → UInt8) : Call → Bool × (Nat → UInt8)
  | addItem str strLen => ocByteStringArrayAddItem dynamic n mem str strLen
  | setItem str strLen index => ocCopyByteStringToArray dynamic mem str strLen index

/-- the slot that the call writes to -/
def slot (dynamic : Bool) (n : Nat) (mem : Nat → UInt8) : Call → Option Nat
  | addItem _ _ => freeSlot dynamic n mem
  | setItem _ _ index => some index

end Call

/-! ## what is asked of them -/

/-- an array, and the items that it has accepted: the slot of each, and its bytes -/
structure State where
  mem : Nat → UInt8
  held : List (Nat × Bytes)

/-- the items after one has been accepted: only `setItem` takes the place of another -/
def Call.hold (held : List (Nat × Bytes)) (i : Nat) : Call → List (Nat × Bytes)
  | c@(addItem _ _) => (i, c.item) :: held
  | c@(setItem _ _ _) => (i, c.item) :: held.filter fun p => p.1 ≠ i

def step (dynamic : Bool) (n : Nat) (s : State) (c : Call) : State :=
  let r := c.run dynamic n s.mem
  ⟨r.2, if r.1 then (c.slot dynamic n s.mem).elim s.held fun i => c.hold s.held i else s.held⟩

/-- the item is read back from slot `p.1`, with its length -/
def ReadBack (dynamic : Bool) (mem : Nat → UInt8) (p : Nat × Bytes) : Prop :=
  (getItemSize dynamic mem p.1).toNat = p.2.length ∧ read mem (getItem dynamic p.1) p.2.length = p.2

/-- every item has a slot of its own in the array, fits into it, and is read back from it -/
structure Apart (dynamic : Bool) (n : Nat) (s : State) : Prop where
  own : (s.held.map Prod.fst).Nodup
  inside : ∀ p ∈ s.held, p.1 < n ∧ p.2.length < stringArrayItemMaxLen dynamic
  back : ∀ p ∈ s.held, ReadBack dynamic s.mem p

/-- slot `j` is the same in both memories -/
def SameSlot (dynamic : Bool) (mem mem' : Nat → UInt8) (j : Nat) : Prop :=
  read mem' (pos dynamic j) (stringArrayItemMaxLen dynamic) =
    read mem (pos dynamic j) (stringArrayItemMaxLen dynamic)

/-- the call does what it is for -/
structure StepKept (dynamic : Bool) (n : Nat) (s : State) (c : Call) : Prop where
  fits : stringArrayItemMaxLen dynamic ≤ c.strLen → (c.run dynamic n s.mem).1 = false
  rejected : (c.run dynamic n s.mem).1 = false → (step dynamic n s c).mem = s.mem
  others : ∀ j, c.slot dynamic n s.mem ≠ some j → SameSlot dynamic s.mem (step dynamic n s c).mem j
  apart : Apart dynamic n (step dynamic n s c)

/-- no empty item waits in the slot that `addItem` takes for a free one -/
def Call.Unheld (held : List (Nat × Bytes)) (i : Nat) : Call → Prop
  | addItem _ _ => i ∉ held.map Prod.fst
  | setItem _ _ _ => True

/-- the text of the argument is too long, there is no free slot, or the item fits and has a slot -/
def Meets (dynamic : Bool) (n : Nat) (s : State) (c : Call) : Prop :=
  strlenGe dynamic c.str = true ∨ c.slot dynamic n s.mem = none ∨
    c.strLen < stringArrayItemMaxLen dynamic ∧
      ∃ i, c.slot dynamic n s.mem = some i ∧ i < n ∧ c.Unheld s.held i

/-- every call of the run does what it is for -/
def KeepsApart (dynamic : Bool) (n : Nat) : State → List Call → Prop
  | _, [] => True
  | s, c :: calls => StepKept dynamic n s c ∧ KeepsApart dynamic n (step dynamic n s c) calls

/-- every call of the run meets the condition -/
def AllMeet (dynamic : Bool) (n : Nat) : State → List Call → Prop
  | _, [] => True
  | s, c :: calls => Meets dynamic n s c ∧ AllMeet dynamic n (step dynamic n s c) calls

/-- a new array, in a memory that held anything -/
def start (dynamic : Bool) (n : Nat) (mem : Nat → UInt8) : State :=
  ⟨ocAllocStringArray dynamic mem n, []⟩

variable {dynamic : Bool} {n i j : Nat} {s : State} {c : Call} {mem str : Nat → UInt8} {strLen : Nat}

/-! ## slots -/

theorem maxLen_le (dynamic : Bool) : stringArrayItemMaxLen dynamic ≤ 128 := by
  cases dynamic <;> decide

/-- different slots have no byte in common -/
theorem slots_disjoint (dynamic : Bool) (h : i ≠ j) :
    pos dynamic i + stringArrayItemMaxLen dynamic ≤ pos dynamic j ∨
      pos dynamic j + stringArrayItemMaxLen dynamic ≤ pos dynamic i := by
  unfold pos
  rw [← Nat.succ_mul, ← Nat.succ_mul]
  rcases Nat.lt_or_gt_of_ne h with h | h
  · exact Or.inl (Nat.mul_le_mul_right _ h)
  · exact Or.inr (Nat.mul_le_mul_right _ h)

/-- an item with its size byte: one write -/
theorem copy_accepted (h : strlenGe dynamic str = false) :
    ocCopyByteStringToArray dynamic mem str strLen i =
      (true, write mem (pos dynamic i) (UInt8.ofNat strLen :: read str 0 strLen)) := by
  unfold ocCopyByteStringToArray
  rw [if_neg (by rw [h]; exact Bool.false_ne_true)]
  exact congrArg _ (write_append mem (pos dynamic i) [UInt8.ofNat strLen] (read str 0 strLen)).symm

/-- an item that fits is read back from its slot -/
theorem copy_readBack (hl : strLen < stringArrayItemMaxLen dynamic) :
    ReadBack dynamic (write mem (pos dynamic i) (UInt8.ofNat strLen :: read str 0 strLen))
      (i, read str 0 strLen) := by
  have hmax := maxLen_le dynamic
  have h := read_write_self mem (pos dynamic i) (UInt8.ofNat strLen :: read str 0 strLen)
  rw [List.length_cons, read_succ] at h
  obtain ⟨hsize, hitem⟩ := List.cons.inj h
  refine ⟨?_, hitem⟩
  unfold getItemSize
  rw [hsize, length_read, UInt8.toNat_ofNat', Nat.mod_eq_of_lt (by omega)]

/-- the other slots are as they were -/
theorem copy_sameSlot (hl : strLen < stringArrayItemMaxLen dynamic) (h : i ≠ j) :
    SameSlot dynamic mem (write mem (pos dynamic i) (UInt8.ofNat strLen :: read str 0 strLen)) j := by
  apply read_write_disjoint
  rw [List.length_cons, length_read]
  rcases slots_disjoint dynamic h with h | h
  · exact Or.inr (by omega)
  · exact Or.inl h

/-- what is read back depends on the slot only -/
theorem ReadBack.of_sameSlot {mem' : Nat → UInt8} {p : Nat × Bytes} (h : ReadBack dynamic mem p)
    (hl : p.2.length < stringArrayItemMaxLen dynamic) (hs : SameSlot dynamic mem mem' p.1) :
    ReadBack dynamic mem' p := by
  constructor
  · unfold getItemSize
    rw [cell_eq_of_read_eq hs (Nat.le_refl _) (by omega)]
    exact h.1
  · have hlo : pos dynamic p.1 ≤ getItem dynamic p.1 := Nat.le_succ _
    rw [read_sub hs hlo (by unfold getItem; omega)]
    exact h.2

/-! ## calls -/

/-- a call that is refused -/
theorem run_rejected (h : strlenGe dynamic c.str = true ∨ c.slot dynamic n mem = none) :
    c.run dynamic n mem = (false, mem) := by
  cases c with
  | addItem str strLen =>
    unfold Call.run ocByteStringArrayAddItem
    cases hs : freeSlot dynamic n mem with
    | none => rfl
    | some i =>
      rcases h with h | h
      · exact if_pos h
      · rw [Call.slot, hs] at h
        cases h
  | setItem str strLen index =>
    rcases h with h | h
    · exact if_pos h
    · cases h

/-- a call that is accepted: one write, from the slot's first byte on -/
theorem run_accepted (h : strlenGe dynamic c.str = false) (hs : c.slot dynamic n mem = some i) :
    c.run dynamic n mem = (true, write mem (pos dynamic i) (UInt8.ofNat c.strLen :: c.item)) := by
  cases c with
  | addItem str strLen =>
    unfold Call.run ocByteStringArrayAddItem
    rw [show freeSlot dynamic n mem = some i from hs]
    exact copy_accepted h
  | setItem str strLen index =>
    obtain rfl := Option.some.inj hs
    exact copy_accepted h

theorem step_rejected (h : strlenGe dynamic c.str = true ∨ c.slot dynamic n s.mem = none) :
    step dynamic n s c = s := by
  unfold step
  rw [run_rejected h]
  rfl

theorem step_accepted (h : strlenGe dynamic c.str = false) (hs : c.slot dynamic n s.mem = some i) :
    step dynamic n s c =
      ⟨write s.mem (pos dynamic i) (UInt8.ofNat c.strLen :: c.item), c.hold s.held i⟩ := by
  unfold step
  rw [run_accepted h hs, hs]
  rfl

theorem length_item (c : Call) : c.item.length = c.strLen := length_read _ _ _

/-- what is held after an accepted call: its item, and items that were held -/
theorem mem_hold {held : List (Nat × Bytes)} {p : Nat × Bytes} (hu : c.Unheld held i)
    (h : p ∈ c.hold held i) : p = (i, c.item) ∨ p ∈ held ∧ i ≠ p.1 := by
  cases c with
  | addItem str strLen =>
    refine (List.mem_cons.mp h).imp id fun hp => ⟨hp, fun hi => hu ?_⟩
    exact hi ▸ List.mem_map_of_mem hp
  | setItem str strLen index =>
    refine (List.mem_cons.mp h).imp id fun hp => ?_
    obtain ⟨hp, hne⟩ := List.mem_filter.mp hp
    exact ⟨hp, fun hi => of_decide_eq_true hne hi.symm⟩

/-- the slots that are held: for `addItem` a new one, if no item waits in it -/
theorem hold_nodup {held : List (Nat × Bytes)} (h : (held.map Prod.fst).Nodup) :
    ((c.hold held i).map Prod.fst).Nodup ↔ c.Unheld held i := by
  cases c with
  | addItem str strLen => exact List.nodup_cons.trans (and_iff_left h)
  | setItem str strLen index =>
    refine iff_of_true (List.nodup_cons.mpr ⟨fun hm => ?_, ?_⟩) trivial
    · obtain ⟨p, hp, hi⟩ := List.mem_map.mp hm
      exact of_decide_eq_true (List.mem_filter.mp hp).2 hi
    · exact h.sublist (List.filter_sublist.map _)

theorem head_hold (c : Call) (held : List (Nat × Bytes)) (i : Nat) : (i, c.item) ∈ c.hold held i := by
  cases c <;> exact List.mem_cons_self

/-- an item that fits is held with the others, each in its slot -/
theorem accepts_keeps (ha : Apart dynamic n s) (hl : c.strLen < stringArrayItemMaxLen dynamic) (hi : i < n)
    (hu : c.Unheld s.held i) :
    Apart dynamic n
      ⟨write s.mem (pos dynamic i) (UInt8.ofNat c.strLen :: c.item), c.hold s.held i⟩ where
  own := (hold_nodup ha.own).mpr hu
  inside p hp := by
    rcases mem_hold hu hp with rfl | ⟨hp, -⟩
    · exact ⟨hi, by rwa [length_item]⟩
    · exact ha.inside p hp
  back p hp := by
    rcases mem_hold hu hp with rfl | ⟨hp, hne⟩
    · exact copy_readBack hl
    · exact (ha.back p hp).of_sameSlot (ha.inside p hp).2 (copy_sameSlot hl hne)

/-- the calls that keep the items apart -/
theorem stepKept_iff (ha : Apart dynamic n s) (c : Call) :
    StepKept dynamic n s c ↔ Meets dynamic n s c := by
  by_cases hr : strlenGe dynamic c.str = true ∨ c.slot dynamic n s.mem = none
  · -- refused: nothing changes
    have hrun := run_rejected hr
    have hstep := step_rejected hr
    refine iff_of_true ⟨fun _ => by rw [hrun], fun _ => by rw [hstep], fun j _ => ?_, by rwa [hstep]⟩
      (hr.imp id Or.inl)
    rw [hstep]
    rfl
  · obtain ⟨hlen, hs⟩ := not_or.mp hr
    obtain ⟨i, hs⟩ := Option.ne_none_iff_exists'.mp hs
    have hlen : strlenGe dynamic c.str = false := Bool.eq_false_of_not_eq_true hlen
    have hrun : c.run dynamic n s.mem = _ := run_accepted hlen hs
    have hstep := step_accepted (s := s) hlen hs
    constructor
    · intro h
      refine Or.inr (Or.inr ⟨Nat.lt_of_not_le fun hfit => ?_, i, hs, ?_, ?_⟩)
      · have := h.fits hfit
        rw [hrun] at this
        cases this
      · have := h.apart.inside (i, c.item) (by rw [hstep]; exact head_hold c s.held i)
        exact this.1
      · have := h.apart.own
        rw [hstep] at this
        exact (hold_nodup ha.own).mp this
    · rintro (h | h | ⟨hl, i', hs', hi, hu⟩)
      · exact absurd h (ne_true_of_eq_false hlen)
      · rw [hs] at h
        cases h
      · obtain rfl := Option.some.inj (hs.symm.trans hs')
        refine ⟨fun h => absurd h (Nat.not_le_of_lt hl), fun h => ?_, fun j hj => ?_, ?_⟩
        · rw [hrun] at h
          cases h
        · rw [hstep]
          exact copy_sameSlot hl fun hij => hj (hij ▸ hs)
        · rw [hstep]
          exact accepts_keeps ha hl hi hu

/-! ## runs -/

theorem start_apart (dynamic : Bool) (n : Nat) (mem : Nat → UInt8) :
    Apart dynamic n (start dynamic n mem) where
  own := List.nodup_nil
  inside _ hp := nomatch hp
  back _ hp := nomatch hp

theorem run_iff (calls : List Call) (ha : Apart dynamic n s) :
    KeepsApart dynamic n s calls ↔ AllMeet dynamic n s calls := by
  induction calls generalizing s with
  | nil => exact Iff.rfl
  | cons c calls ih =>
    constructor
    · rintro ⟨h, hr⟩
      exact ⟨(stepKept_iff ha c).mp h, (ih h.apart).mp hr⟩
    · rintro ⟨h, hr⟩
      have h := (stepKept_iff ha c).mpr h
      exact ⟨h, (ih h.apart).mpr hr⟩

/-- the items of an array stay apart as long as no item is longer than its slot while the text in it is
not, and no empty item waits in the array for one that is added -/
theorem keepsApart_iff (dynamic : Bool) (n : Nat) (mem : Nat → UInt8) (calls : List Call) :
    KeepsApart dynamic n (start dynamic n mem) calls ↔ AllMeet dynamic n (start dynamic n mem) calls :=
  run_iff calls (start_apart dynamic n mem)

/-- an item of 128 bytes that begins with a zero is accepted, and its end is in the next slot; and an item
that is added behind an empty one takes its place -/
theorem items_collide :
    ¬ KeepsApart true 2 (start true 2 fun _ => 0) [.setItem (fun _ => 0) 128 0] ∧
      ¬ KeepsApart true 2 (start true 2 fun _ => 0) [.addItem (fun _ => 0) 0, .addItem (fun _ => 0) 1] := by
  have hlen : strlenGe true (fun _ => 0) = false := by decide
  constructor
  · rintro ⟨h, -⟩
    have := h.fits (by decide)
    rw [run_accepted hlen rfl] at this
    cases this
  · rintro ⟨-, h, -⟩
    have hown := h.apart.own
    revert hown
    decide

end ByteStringArray
