import Iotivity.Payload.Build

/-!
# Parsing where there is memory

A program that meets no error is known by what it allocates: it returns, or one of its blocks has a size
that `_oc_mmem_alloc` takes for a failure.

* `Alloc`, `Room`        allocations, and the memory for them;
* `Goes`                 a program that returns behind its allocations, without an error;
* `goes_*`               the rules for the steps;
* `parseElements_first`   the loop over the elements of an array of one kind.
-/

namespace Payload
open Triple

/-! ## allocations -/

/-- * `node`    `_alloc_rep`;
* `block`   `oc_malloc`. -/
inductive Alloc where
  | node
  | block (p : Pool) (n : Nat)

/-- there is a block, or there are units, for each allocation when its turn comes -/
def Room : List Alloc → Pools → Prop
  | [], _ => True
  | .node :: as, s => ¬ s.repCapacity.any (· ≤ s.reps) ∧ Room as { s with reps := s.reps + 1 }
  | .block p n :: as, s => ¬ (s.capacity p).any (· < s.units p + n) ∧ Room as (s.take p n)

/-- `_oc_mmem_alloc` returns something else than 0 -/
def Alloc.Granted : Alloc → Prop
  | .node => True
  | .block p n => p.width * n % 2^32 ≠ 0

/-- Where there is memory, the program makes these allocations and returns `a` without an error, unless one
of them is not granted. -/
def Goes {α : Type} (m : Parser α) (as : List Alloc) (a : α) : Prop :=
  ∀ r rest, r.err = 0 → Room (as ++ rest) r.pools →
    Sat m r (fun x r' => x = a ∧ r'.err = 0 ∧ Room rest r'.pools ∧ ∀ b ∈ as, b.Granted)
      fun _ _ => ¬ ∀ b ∈ as, b.Granted

section
variable {α β : Type} {m : Parser α} {a : α} {b : β} {as bs : List Alloc}

theorem Goes.pure : Goes (Pure.pure a) [] a :=
  fun _ _ hr hroom => Sat.pure ⟨rfl, hr, hroom, fun _ h => absurd h List.not_mem_nil⟩

theorem Goes.bind {f : α → Parser β} (hm : Goes m as a) (hf : Goes (f a) bs b) :
    Goes (m >>= f) (as ++ bs) b := by
  intro r rest hr hroom
  rw [List.append_assoc] at hroom
  refine Sat.bind ((hm r (bs ++ rest) hr hroom).imp (fun _ _ h => h) fun _ _ h hall => ?_) ?_
  · exact h (List.forall_mem_append.mp hall).1
  · rintro x r' ⟨rfl, hr', hroom', has⟩
    refine (hf r' rest hr' hroom').imp (fun y r'' h => ?_) fun _ _ h hall => ?_
    · exact ⟨h.1, h.2.1, h.2.2.1, List.forall_mem_append.mpr ⟨has, h.2.2.2⟩⟩
    · exact h (List.forall_mem_append.mp hall).2

/-- behind the last allocation -/
theorem Goes.last {f : α → Parser β} (hm : Goes m as a) (hf : Goes (f a) [] b) : Goes (m >>= f) as b := by
  have h := hm.bind hf
  rwa [List.append_nil] at h

/-- behind a program that allocates nothing -/
theorem Goes.behind {f : α → Parser β} (hm : Goes m [] a) (hf : Goes (f a) bs b) : Goes (m >>= f) bs b :=
  hm.bind hf

/-! ## rules for the steps -/

theorem goes_orError {f : Unit → Parser α} (h : Goes (f ()) as a) : Goes (orError 0 >>= f) as a := by
  intro r rest hr hroom
  exact sat_orError (h _ rest (by rw [hr]; rfl) hroom)

theorem goes_setError {f : Unit → Parser α} (h : Goes (f ()) as a) : Goes (setError 0 >>= f) as a :=
  fun _ rest _ hroom => sat_setError (h _ rest rfl hroom)

theorem goes_failed {f : Bool → Parser α} (h : Goes (f false) as a) : Goes (failed >>= f) as a := by
  intro r rest hr hroom
  refine sat_failed ?_
  rw [hr]
  exact h r rest hr hroom

theorem goes_store {f : Unit → Parser α} {x : Store} (h : Goes (f ()) as a) :
    Goes (store x >>= f) as a :=
  fun _ rest hr hroom => sat_store (h _ rest hr hroom)

theorem goes_allocRep {f : Bool → Parser α} (h : Goes (f true) as a) :
    Goes (allocRep >>= f) (.node :: as) a := by
  intro r rest hr hroom
  have halloc := allocRep_eq r
  rw [if_neg hroom.1] at halloc
  have hnext := h { r with pools := { r.pools with reps := r.pools.reps + 1 } } rest hr hroom.2
  refine Sat.bind_ok halloc (hnext.imp (fun x r' hx => ?_) fun _ _ hx hall => ?_)
  · exact ⟨hx.1, hx.2.1, hx.2.2.1, List.forall_mem_cons.mpr ⟨trivial, hx.2.2.2⟩⟩
  · exact hx (List.forall_mem_cons.mp hall).2

theorem goes_ocMalloc {f : Unit → Parser α} {p : Pool} {n : Nat} (h : Goes (f ()) as a) :
    Goes (ocMalloc p n >>= f) (.block p n :: as) a := by
  intro r rest hr hroom
  have halloc := ocMalloc_eq p n r
  by_cases hzero : p.width * n % 2^32 = 0
  · rw [if_pos (Or.inl hzero)] at halloc
    exact Sat.bind_error halloc fun hall => (List.forall_mem_cons.mp hall).1 hzero
  · rw [if_neg fun hor => hor.elim hzero hroom.1] at halloc
    have hnext := h { r with pools := r.pools.take p n } rest hr hroom.2
    refine Sat.bind_ok halloc (hnext.imp (fun x r' hx => ?_) fun _ _ hx hall => ?_)
    · exact ⟨hx.1, hx.2.1, hx.2.2.1, List.forall_mem_cons.mpr ⟨hzero, hx.2.2.2⟩⟩
    · exact hx (List.forall_mem_cons.mp hall).2

theorem goes_leaveMembers {site : Site} {rep : OcRep} {f : Bool → Parser α} (hrep : rep ≠ .null)
    (h : Goes (f false) as a) : Goes (leaveMembers site rep >>= f) as a := by
  cases site with
  | root => exact goes_failed h
  | object => exact goes_failed h
  | property =>
    cases rep with
    | null => exact absurd rfl hrep
    | node =>
      intro r rest hr hroom
      exact goes_failed h { r with cut := r.cut || r.err != 0 } rest hr hroom

end

/-! ## strings -/

theorem copy_enough (s : List UInt8) {n : Nat} (hn : s.length ≤ n) :
    (⟨s.length, 0, s, 0⟩ : CborString).copy n = (0, s) :=
  if_neg (Nat.not_lt.mpr hn)

/-- the key, and the value behind it -/
theorem parseKey_goes {s : List UInt8} {value : OcString → Parser OcRep} {as : List Alloc} {rep : OcRep}
    (hs : s.length < 2^31) (h : Goes (value ⟨s.length + 1, s⟩) as rep) :
    Goes (parseKey (textItem s) 0 value) (.node :: .block .byte (s.length + 1) :: as) ⟨rep, true⟩ := by
  have hlen : (s.length + 1) % 2^64 = s.length + 1 := Nat.mod_eq_of_lt (by omega)
  unfold parseKey textItem
  refine goes_allocRep ?_
  rw [if_neg (by decide)]
  show Goes (orError 0 >>= fun _ => failed >>= _) _ _
  refine goes_orError (goes_failed ?_)
  rw [hlen, if_neg fun hor => hor.elim Bool.noConfusion (Nat.succ_ne_zero _),
    copy_enough s (Nat.le_succ _)]
  exact goes_ocMalloc (goes_orError (goes_failed (goes_orError (h.last Goes.pure))))

theorem parseString_goes {s : List UInt8} (hs : s.length < 2^31) :
    Goes (parseString ⟨s.length, 0, s, 0⟩) [.block .byte (s.length + 1)]
      (some (.string (s.length + 1) s)) := by
  have hlen : (s.length + 1) % 2^64 = s.length + 1 := Nat.mod_eq_of_lt (by omega)
  unfold parseString
  refine goes_orError (goes_failed ?_)
  show Goes (if false = true ∨ (s.length + 1) % 2^64 = 0 then _ else _) _ _
  rw [hlen, if_neg fun hor => hor.elim Bool.noConfusion (Nat.succ_ne_zero _),
    copy_enough s (Nat.le_succ _)]
  exact goes_ocMalloc (goes_orError Goes.pure)

/-! ## elements -/

def CborItem.pool : CborItem → Pool
  | .integer _ _ => .int
  | .double _ _ => .double
  | _ => .byte

/-- the size of the block of an array, if its first element is `i` -/
def CborItem.units (d : Bool) (len : Nat) : CborItem → Nat
  | .byteString _ => len * stringArrayItemMaxLen d
  | .textString _ => len * stringArrayItemMaxLen d
  | _ => len

/-- an element that is no map, and that nothing is wrong with -/
def CborItem.Clean (d : Bool) : CborItem → Prop
  | .integer _ e => e = 0
  | .boolean _ e => e = 0
  | .double _ e => e = 0
  | .byteString s => s.lengthError = 0 ∧ (s.copy (byteItemLength d s)).1 = 0
  | .textString s => s.lengthError = 0 ∧ (s.copy (textItemLength d s)).1 = 0
  | _ => False

/-- elements with their indices, from `k` on -/
def indexed : Nat → List CborItem → List (Nat × CborItem)
  | _, [] => []
  | k, i :: items => (k, i) :: indexed (k + 1) items

section
variable {d : Bool} {len k : Nat} {i : CborItem} {cur cur' out : Cur} {as bs : List Alloc}

theorem putElement_goes {code units : Nat} {pool : Pool} {write : Nat → Parser Unit}
    (hopen : Goes (openArray code pool units k cur) as (some cur'))
    (hwrite : ∀ block, Goes (write block) [] ()) :
    Goes (putElement code pool units k i cur write) as (some (cur'.put k i)) := by
  refine hopen.last ?_
  exact (hwrite _).last Goes.pure

theorem parseScalar_goes (hi : i.Clean d)
    (hopen : Goes (openArray i.code i.pool (i.units d len) k cur) as (some cur')) :
    Goes (parseScalar d len k i cur) as (some (cur'.put k i)) := by
  unfold parseScalar
  cases i with
  | integer v e =>
    obtain rfl : e = 0 := hi
    exact putElement_goes hopen fun _ => goes_store (goes_orError Goes.pure)
  | boolean v e =>
    obtain rfl : e = 0 := hi
    exact putElement_goes hopen fun _ => goes_store (goes_orError Goes.pure)
  | double v e =>
    obtain rfl : e = 0 := hi
    exact putElement_goes hopen fun _ => goes_store (goes_orError Goes.pure)
  | byteString s =>
    refine putElement_goes hopen fun _ => ?_
    rw [hi.1, hi.2]
    exact goes_orError (goes_store (goes_store (goes_orError Goes.pure)))
  | textString s =>
    refine putElement_goes hopen fun _ => ?_
    rw [hi.1, hi.2]
    exact goes_orError (goes_store (goes_orError Goes.pure))
  | _ => exact hi.elim

/-- one element, and those behind it -/
theorem parseElements_scalar {next : CborValue} (hi : i.Clean d)
    (hopen : Goes (openArray i.code i.pool (i.units d len) k cur) as (some cur'))
    (hnext : Goes (parseElements d len next (k + 1) (cur'.put k i)) bs out) :
    Goes (parseElements d len (.item i 0 .atEnd 0 next) k cur) (as ++ bs) out := by
  have hmap : i ≠ .map := by
    rintro rfl
    exact hi
  rw [parseElements_item hmap]
  refine (parseScalar_goes hi hopen).bind ?_
  exact goes_failed (goes_orError hnext)

/-- the later elements of an array go into its block -/
theorem parseElements_later {type : Nat} {pool : Pool} {size : Nat} (items : List CborItem) :
    ∀ (k : Nat) (stored : List (Nat × CborItem)) (objects : List OcRep), k ≠ 0 →
      (∀ i ∈ items, i.Clean d ∧ type &&& i.code = i.code) →
      Goes (parseElements d len (view (plain items)) k ⟨type, .array pool size stored, objects⟩) []
        ⟨type, .array pool size (stored ++ indexed k items), objects⟩ := by
  induction items with
  | nil =>
    intro k stored objects _ _
    rw [indexed, List.append_nil]
    exact Goes.pure
  | cons i items ih =>
    intro k stored objects hk hall
    obtain ⟨hi, hcode⟩ := hall i List.mem_cons_self
    have hopen : Goes (openArray i.code i.pool (i.units d len) k ⟨type, .array pool size stored, objects⟩)
        [] (some ⟨type, .array pool size stored, objects⟩) := by
      unfold openArray
      rw [if_neg hk, if_neg (not_not_intro hcode)]
      exact Goes.pure
    have hnext := ih (k + 1) (stored ++ [(k, i)]) objects (Nat.succ_ne_zero k)
      fun j hj => hall j (List.mem_cons_of_mem i hj)
    rw [List.append_assoc] at hnext
    exact parseElements_scalar hi hopen hnext

/-- an array of one kind: its block is allocated with the first element -/
theorem parseElements_first {items : List CborItem} (hi : i.Clean d)
    (hall : ∀ j ∈ items, j.Clean d ∧ j.code = i.code) :
    Goes (parseElements d len (view (plain (i :: items))) 0 ⟨ocRepNil, .none, []⟩)
      [.block i.pool (i.units d len)]
      ⟨i.code ||| ocRepArray, .array i.pool (i.units d len) (indexed 0 (i :: items)), []⟩ := by
  have hopen : Goes (openArray i.code i.pool (i.units d len) 0 ⟨ocRepNil, .none, []⟩)
      [.block i.pool (i.units d len)]
      (some ⟨i.code ||| ocRepArray, .array i.pool (i.units d len) [], []⟩) :=
    goes_ocMalloc Goes.pure
  have hlater : Goes (parseElements d len (view (plain items)) 1
      ⟨i.code ||| ocRepArray, .array i.pool (i.units d len) [(0, i)], []⟩) []
      ⟨i.code ||| ocRepArray, .array i.pool (i.units d len) (indexed 0 (i :: items)), []⟩ := by
    refine parseElements_later items 1 [(0, i)] [] Nat.one_ne_zero fun j hj => ⟨(hall j hj).1, ?_⟩
    rw [(hall j hj).2]
    exact or_and_self _ _
  exact parseElements_scalar hi hopen hlater

/-! ## lengths -/

theorem countElements_goes (items : List (CborItem × CborValue)) :
    ∀ n, Goes (countElements (view items) n) [] (some (n + items.length)) := by
  induction items with
  | nil => exact fun n => Goes.pure
  | cons i items ih =>
    intro n
    have h := ih (n + 1)
    rw [Nat.add_right_comm] at h
    exact goes_failed (goes_setError h)

/-- an array of known or of indefinite length -/
theorem arrayLength_goes {length : Option Nat} {items : List (CborItem × CborValue)}
    (h : length = none ∨ length = some items.length) :
    Goes (arrayLength length (view items)) [] (some items.length) := by
  have hcount := countElements_goes items 0
  rw [Nat.zero_add] at hcount
  unfold arrayLength
  by_cases hzero : length.getD 0 = 0
  · rw [if_pos hzero]
    exact hcount
  · rw [if_neg hzero]
    obtain rfl : length = some items.length :=
      h.resolve_left fun hnone => hzero (by rw [hnone]; rfl)
    exact Goes.pure

end

end Payload
