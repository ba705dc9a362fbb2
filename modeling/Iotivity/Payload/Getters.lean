import Iotivity.Engine.Lookup
import Iotivity.Payload.Tree

/-!
# `oc_rep_get_*`

* `ocRepGetValue`      the search of a key;
* `ocRepGetInt` …      the functions for the types, and the access to the elements of arrays;
* `Got`                all values of an object are read back, at any depth;
* `got_members_iff`    from its tree they are, but for an array of strings that has been cut.
-/

namespace Payload
open Coap (strncmpEq strncmpFrom cString)

/-! ## the functions -/

/-- `oc_string_len` -/
def OcString.len (s : OcString) : Nat := if s.size ≠ 0 then s.size - 1 else 0

/-- `oc_rep_get_value`: the value and the pointer of the union, for the `switch` -/
def ocRepGetValue (type : Nat) (key : CString) : OcRep → Option (RepValue × OcRep)
  | .null => none
  | .node t name value object next =>
    if name.len = key.bytes.length ∧ strncmpEq key.bytes name.data name.len ∧ t = type then
      some (value, object)
    else ocRepGetValue type key next

def ocRepGetInt (rep : OcRep) (key : CString) : Option Int :=
  match ocRepGetValue ocRepInt key rep with
  | some (.integer v, _) => some v
  | _ => none

def ocRepGetBool (rep : OcRep) (key : CString) : Option Bool :=
  match ocRepGetValue ocRepBool key rep with
  | some (.boolean b, _) => some b
  | _ => none

def ocRepGetDouble (rep : OcRep) (key : CString) : Option UInt64 :=
  match ocRepGetValue ocRepDouble key rep with
  | some (.double bits, _) => some bits
  | _ => none

/-- a string, and its length -/
def getString (type : Nat) (rep : OcRep) (key : CString) : Option (List UInt8 × Nat) :=
  match ocRepGetValue type key rep with
  | some (.string size data, _) => some (data, OcString.len ⟨size, data⟩)
  | _ => none

def ocRepGetByteString (rep : OcRep) (key : CString) : Option (List UInt8 × Nat) :=
  getString ocRepByteString rep key

def ocRepGetString (rep : OcRep) (key : CString) : Option (List UInt8 × Nat) :=
  getString ocRepString rep key

/-- `*size = (int)n` -/
def asSize (n : Nat) : Nat := (asInt n % 2^64).toNat

/-- an array, and the number of its elements, if one of them takes `width` units -/
def getArray (code width : Nat) (rep : OcRep) (key : CString) : Option (RepValue × Nat) :=
  match ocRepGetValue (code ||| ocRepArray) key rep with
  | some (.array pool size elements, _) => some (.array pool size elements, asSize (size / width))
  | _ => none

def ocRepGetIntArray (rep : OcRep) (key : CString) : Option (RepValue × Nat) :=
  getArray ocRepInt 1 rep key

def ocRepGetBoolArray (rep : OcRep) (key : CString) : Option (RepValue × Nat) :=
  getArray ocRepBool 1 rep key

def ocRepGetDoubleArray (rep : OcRep) (key : CString) : Option (RepValue × Nat) :=
  getArray ocRepDouble 1 rep key

def ocRepGetObject (rep : OcRep) (key : CString) : Option OcRep :=
  (ocRepGetValue ocRepObject key rep).map (·.2)

def ocRepGetObjectArray (rep : OcRep) (key : CString) : Option OcRep :=
  (ocRepGetValue (ocRepObject ||| ocRepArray) key rep).map (·.2)

/-- what has been stored last at this index -/
def RepValue.element (k : Nat) : RepValue → Option CborItem
  | .array _ _ elements => (elements.reverse.find? (·.1 == k)).map (·.2)
  | _ => Option.none

/-- `oc_int_array(array)[k]` -/
def intAt (array : RepValue) (k : Nat) : Option Int :=
  match array.element k with
  | some (.integer v _) => some v
  | _ => none

/-- `oc_bool_array(array)[k]` -/
def boolAt (array : RepValue) (k : Nat) : Option Bool :=
  match array.element k with
  | some (.boolean b _) => some b
  | _ => none

/-- `oc_double_array(array)[k]` -/
def doubleAt (array : RepValue) (k : Nat) : Option UInt64 :=
  match array.element k with
  | some (.double bits _) => some bits
  | _ => none

section
variable (d : Bool)

def ocRepGetByteStringArray (rep : OcRep) (key : CString) : Option (RepValue × Nat) :=
  getArray ocRepByteString (stringArrayItemMaxLen d) rep key

def ocRepGetStringArray (rep : OcRep) (key : CString) : Option (RepValue × Nat) :=
  getArray ocRepString (stringArrayItemMaxLen d) rep key

/-- `oc_string_array_get_item` -/
def textAt (array : RepValue) (k : Nat) : Option (List UInt8) :=
  match array.element k with
  | some (.textString s) => some (s.copy (textItemLength d s)).2
  | _ => none

/-- `oc_byte_string_array_get_item`, with `oc_byte_string_array_get_item_size` bytes -/
def bytesAt (array : RepValue) (k : Nat) : Option (List UInt8) :=
  match array.element k with
  | some (.byteString s) => some ((s.copy (byteItemLength d s)).2.take (byteItemLength d s % 2^8))
  | _ => none

/-! ## what has been set -/

/-- an array that has been read has these elements -/
def Has {α : Type} (read : RepValue → Nat → Option α) (l : List α) (x : Option (RepValue × Nat)) : Prop :=
  ∃ array, x = some (array, l.length) ∧ ∀ k y, l[k]? = some y → read array k = some y

def Elements.Got (rep : OcRep) (key : CString) : Elements → Prop
  | .ints l => Has intAt l (ocRepGetIntArray rep key)
  | .bools l => Has boolAt l (ocRepGetBoolArray rep key)
  | .doubles l => Has doubleAt l (ocRepGetDoubleArray rep key)
  | .texts l => Has (textAt d) (l.map CString.bytes) (ocRepGetStringArray d rep key)
  | .bytes l => Has (bytesAt d) l (ocRepGetByteStringArray d rep key)

mutual

/-- the function for the type of the value returns it -/
def Value.Got (rep : OcRep) (key : CString) : Value → Prop
  | .int v => ocRepGetInt rep key = some v
  | .uint v => ocRepGetInt rep key = some v
  | .boolean b => ocRepGetBool rep key = some b
  | .double bits => ocRepGetDouble rep key = some bits
  | .textString s => ocRepGetString rep key = some (s.bytes, s.bytes.length)
  | .byteString s => ocRepGetByteString rep key = some (s, s.length)
  | .array _ e => e.Got d rep key
  | .object ms => ∃ object, ocRepGetObject rep key = some object ∧ ms.Got object
  | .objects os => ∃ object, ocRepGetObjectArray rep key = some object ∧ os.Got object

def Members.Got (rep : OcRep) : Members → Prop
  | .nil => True
  | .cons key v ms => v.Got rep key ∧ ms.Got rep

/-- the objects of an array are linked by `next`; the members of one are in `value.object` -/
def Objects.Got (rep : OcRep) : Objects → Prop
  | .nil => rep = .null
  | .cons ms os => ∃ type name value object next, rep = .node type name value object next ∧
      ms.Got object ∧ os.Got next

end

mutual

/-- the arrays of an object, at any depth -/
def Value.arrays : Value → List (Bool × Elements)
  | .array whole e => [(whole, e)]
  | .object ms => ms.arrays
  | .objects os => os.arrays
  | _ => []

def Members.arrays : Members → List (Bool × Elements)
  | .nil => []
  | .cons _ v ms => v.arrays ++ ms.arrays

def Objects.arrays : Objects → List (Bool × Elements)
  | .nil => []
  | .cons ms os => ms.arrays ++ os.arrays

end

/-- the loop of `oc_rep_set_string_array` comes to all items -/
def Elements.Counted : Bool → Elements → Prop
  | true, .texts l => l.length < 2^31
  | _, _ => True

end

/-! ## keys -/

theorem strncmpFrom_iff {a b : List UInt8} (ha : 0 ∉ a) : ∀ (n i : Nat), i + n ≤ a.length →
    (strncmpFrom (cString a) (cString b) i n = true ↔
      ∀ j, i ≤ j → j < i + n → cString a j = cString b j) := by
  intro n
  induction n with
  | zero => exact fun i _ => iff_of_true rfl fun j h h' => absurd h (Nat.not_le_of_lt h')
  | succ n ih =>
    intro i hi
    have hne : cString a i ≠ 0 := by
      unfold cString
      rw [List.getD_eq_getElem a 0 (by omega)]
      exact fun h => ha (h ▸ List.getElem_mem _)
    have hih := ih (i + 1) (by omega)
    unfold strncmpFrom
    by_cases heq : cString a i = cString b i
    · rw [if_neg (not_not_intro heq), if_neg hne, hih]
      constructor
      · intro h j hj hlt
        rcases Nat.eq_or_lt_of_le hj with rfl | hj
        · exact heq
        · exact h j hj (by omega)
      · exact fun h j hj hlt => h j (by omega) (by omega)
    · rw [if_pos heq]
      exact iff_of_false Bool.noConfusion fun h => heq (h i (Nat.le_refl i) (by omega))

/-- strings of one length, the first one without NUL -/
theorem strncmpEq_iff {a b : List UInt8} (ha : 0 ∉ a) (hlen : b.length = a.length) :
    strncmpEq a b b.length = true ↔ b = a := by
  unfold strncmpEq
  rw [strncmpFrom_iff ha b.length 0 (by omega)]
  constructor
  · intro h
    refine List.ext_getElem hlen fun j hb hj => ?_
    have hj' := h j (Nat.zero_le j) (by omega)
    unfold cString at hj'
    rw [List.getD_eq_getElem a 0 hj, List.getD_eq_getElem b 0 hb] at hj'
    exact hj'.symm
  · rintro rfl
    exact fun _ _ _ => rfl

theorem CString.ext {k k' : CString} (h : k.bytes = k'.bytes) : k = k' := by
  cases k
  cases k'
  cases h
  rfl

section
variable {t type : Nat} {key key' : CString} {value : RepValue} {object next : OcRep}

/-- the node of another key is passed over -/
theorem get_other (h : key' ≠ key) : ocRepGetValue type key (.node t key'.name value object next) =
    ocRepGetValue type key next := by
  refine if_neg fun hmatch => h (CString.ext ?_)
  exact (strncmpEq_iff key.noNul hmatch.1).mp hmatch.2.1

theorem get_type (h : t ≠ type) : ocRepGetValue type key (.node t key'.name value object next) =
    ocRepGetValue type key next :=
  if_neg fun hmatch => h hmatch.2.2

theorem get_key : ocRepGetValue t key (.node t key.name value object next) = some (value, object) :=
  if_pos ⟨rfl, (strncmpEq_iff key.noNul rfl).mpr rfl, rfl⟩

end

/-! ## arrays -/

theorem mem_indexed {x : Nat × CborItem} (items : List CborItem) : ∀ k,
    x ∈ indexed k items ↔ k ≤ x.1 ∧ items[x.1 - k]? = some x.2 := by
  induction items with
  | nil => exact fun k => iff_of_false List.not_mem_nil fun h => nomatch h.2
  | cons i items ih =>
    intro k
    rw [indexed, List.mem_cons, ih]
    constructor
    · rintro (rfl | ⟨hk, hx⟩)
      · refine ⟨Nat.le_refl k, ?_⟩
        rw [Nat.sub_self]
        rfl
      · refine ⟨by omega, ?_⟩
        rw [show x.1 - k = x.1 - (k + 1) + 1 by omega]
        exact hx
    · rintro ⟨hk, hx⟩
      rcases Nat.eq_or_lt_of_le hk with rfl | hk
      · rw [Nat.sub_self] at hx
        obtain rfl : i = x.2 := Option.some.inj hx
        exact Or.inl rfl
      · rw [show x.1 - k = x.1 - (k + 1) + 1 by omega] at hx
        exact Or.inr ⟨hk, hx⟩

theorem element_indexed {p : Pool} {n k : Nat} {items : List CborItem} {i : CborItem}
    (h : items[k]? = some i) : (RepValue.array p n (indexed 0 items)).element k = some i := by
  have hmem : ∀ x, x ∈ (indexed 0 items).reverse ↔ items[x.1]? = some x.2 := fun x => by
    rw [List.mem_reverse, mem_indexed]
    exact ⟨And.right, fun h => ⟨Nat.zero_le _, h⟩⟩
  show ((indexed 0 items).reverse.find? (·.1 == k)).map (·.2) = some i
  cases hfind : (indexed 0 items).reverse.find? (·.1 == k) with
  | none => exact absurd (beq_self_eq_true k) (List.find?_eq_none.mp hfind (k, i) ((hmem (k, i)).mpr h))
  | some x =>
    have hx := (hmem x).mp (List.mem_of_find?_eq_some hfind)
    have hk : (x.1 == k) = true := List.find?_some (p := fun x : Nat × CborItem => x.1 == k) hfind
    rw [beq_iff_eq.mp hk, h] at hx
    exact hx.symm

theorem asSize_of_lt {n : Nat} (h : n < 2^31) : asSize n = n := by
  unfold asSize
  rw [asInt_of_inRange ⟨by omega, by omega⟩, Int.emod_eq_of_lt (by omega) (by omega)]
  exact Int.toNat_natCast n

section
variable {d : Bool} {rep : OcRep} {key : CString} {code width : Nat} {items : List CborItem}

/-- the array of a node with elements -/
theorem getArray_node (hne : items ≠ []) (hcode : ∀ i ∈ items, i.code = code)
    (hunits : ∀ i ∈ items, ∀ len, i.units d len / width = len) (hlen : items.length < 2^31)
    (hlook : ∀ type, ocRepGetValue type key rep = ocRepGetValue type key (arrayNode d key.name items)) :
    ∃ p n, getArray code width rep key = some (.array p n (indexed 0 items), items.length) := by
  cases items with
  | nil => exact absurd rfl hne
  | cons i items =>
    have hget : ocRepGetValue (code ||| ocRepArray) key rep =
        some (.array i.pool (i.units d (items.length + 1)) (indexed 0 (i :: items)), .null) := by
      rw [hlook, ← hcode i List.mem_cons_self]
      exact get_key
    refine ⟨i.pool, i.units d (items.length + 1), ?_⟩
    unfold getArray
    rw [hget]
    show some (_, asSize (i.units d (items.length + 1) / width)) = _
    rw [hunits i List.mem_cons_self, asSize_of_lt (show items.length + 1 < 2^31 from hlen)]
    rfl

/-- without elements there is no array -/
theorem getArray_none (hcode : code ≠ 0)
    (hlook : ∀ type, ocRepGetValue type key rep = ocRepGetValue type key (arrayNode d key.name [])) :
    getArray code width rep key = none := by
  have hget : ocRepGetValue (code ||| ocRepArray) key rep = none := by
    rw [hlook]
    exact get_type fun h => hcode (Nat.or_eq_zero_iff.mp h.symm).1
  unfold getArray
  rw [hget]

/-- the elements of an array are read back -/
theorem has_elements {α : Type} {f : α → CborItem} {read : RepValue → Nat → Option α} {l : List α}
    (hne : l ≠ []) (hcode : ∀ x ∈ l, (f x).code = code)
    (hunits : ∀ x ∈ l, ∀ len, (f x).units d len / width = len) (hlen : (l.map f).length < 2^31)
    (hread : ∀ array k, ∀ x ∈ l, array.element k = some (f x) → read array k = some x)
    (hlook : ∀ type, ocRepGetValue type key rep =
      ocRepGetValue type key (arrayNode d key.name (l.map f))) :
    Has read l (getArray code width rep key) := by
  have hmap : ∀ {P : CborItem → Prop}, (∀ x ∈ l, P (f x)) → ∀ i ∈ l.map f, P i := by
    intro P h i hi
    obtain ⟨x, hx, rfl⟩ := List.mem_map.mp hi
    exact h x hx
  obtain ⟨p, n, hget⟩ := getArray_node (fun h => hne (List.map_eq_nil_iff.mp h)) (hmap hcode)
    (hmap hunits) hlen hlook
  refine ⟨_, hget.trans (by rw [List.length_map]), fun k x hx => ?_⟩
  refine hread _ k x (List.mem_of_getElem? hx) (element_indexed ?_)
  rw [List.getElem?_map, hx]
  rfl

/-- where the loop comes to all items, all of them are written -/
theorem written_of_counted {e : Elements} {whole : Bool} (h : e.Valid d) (hcount : e.Counted whole) :
    e.written whole = e := by
  cases whole with
  | false => cases e <;> rfl
  | true =>
    cases e with
    | texts l =>
      have hlen : l.length < 2^31 := hcount
      have hall : l.filter (fun s => decide (s.bytes.length > 0)) = l :=
        List.filter_eq_self.mpr fun s hs => decide_eq_true (List.length_pos_iff.mpr (h.2 s hs).1)
      show Elements.texts _ = _
      rw [asInt_of_inRange ⟨by omega, by omega⟩, Int.toNat_natCast, List.take_length, hall]
    | _ => rfl

theorem int_read {v : Int} (h : InRange v) {array : RepValue} {k : Nat}
    (helement : array.element k = some (intItem v)) : intAt array k = some v := by
  unfold intAt
  rw [helement]
  exact congrArg some (asInt_of_inRange h)

theorem text_read {s : List UInt8} (h : Fitting d s) {array : RepValue} {k : Nat}
    (helement : array.element k = some (textItem s)) : textAt d array k = some s := by
  unfold textAt
  rw [helement]
  show some (CborString.copy _ (textItemLength d ⟨s.length, 0, s, 0⟩)).2 = _
  rw [textItemLength_of_fitting h, copy_enough s (Nat.le_succ _)]

theorem bytes_read {s : List UInt8} (h : Fitting d s) {array : RepValue} {k : Nat}
    (helement : array.element k = some (byteItem s)) : bytesAt d array k = some s := by
  have hitem : stringArrayItemMaxLen d ≤ 128 := by cases d <;> decide
  have hsize : s.length % 2^8 = s.length := Nat.mod_eq_of_lt (by have := h.2; omega)
  unfold bytesAt
  rw [helement]
  show some ((CborString.copy _ (byteItemLength d ⟨s.length, 0, s, 0⟩)).2.take
    (byteItemLength d ⟨s.length, 0, s, 0⟩ % 2^8)) = _
  rw [byteItemLength_of_fitting h, copy_enough s (Nat.le_refl _), hsize, List.take_length]

theorem got_texts {l : List CString} (hvalid : (Elements.texts l).Valid d) (hlen : l.length < 2^31)
    (hlook : ∀ type, ocRepGetValue type key rep =
      ocRepGetValue type key (arrayNode d key.name (Elements.texts l).items)) :
    (Elements.texts l).Got d rep key := by
  have hitems : (Elements.texts l).items = (l.map CString.bytes).map textItem := by
    rw [List.map_map]
    rfl
  rw [hitems] at hlook
  have hfit : ∀ s ∈ l.map CString.bytes, Fitting d s := by
    intro s hs
    obtain ⟨t, ht, rfl⟩ := List.mem_map.mp hs
    exact hvalid.2 t ht
  refine has_elements (f := textItem) (fun h => hvalid.1 (List.map_eq_nil_iff.mp h)) (fun _ _ => rfl)
    (fun _ _ len => Nat.mul_div_cancel len (item_pos d)) ?_ (fun _ _ s hs => text_read (hfit s hs)) hlook
  rwa [List.length_map, List.length_map]

/-- An array is read back, unless it is one of strings that has been cut. -/
theorem got_elements_iff {e : Elements} {whole : Bool} (hvalid : e.Valid d)
    (hlen : (e.written whole).items.length < 2^31)
    (hlook : ∀ type, ocRepGetValue type key rep =
      ocRepGetValue type key (arrayNode d key.name (e.written whole).items)) :
    e.Got d rep key ↔ e.Counted whole := by
  have hitem := item_pos d
  by_cases hcount : e.Counted whole
  · refine iff_of_true ?_ hcount
    rw [written_of_counted hvalid hcount] at hlen hlook
    cases e with
    | ints l =>
      exact has_elements (f := intItem) hvalid.1 (fun _ _ => rfl) (fun _ _ len => Nat.div_one len) hlen
        (fun _ _ v hv => int_read (hvalid.2 v hv)) hlook
    | bools l =>
      refine has_elements (f := (.boolean · 0)) hvalid (fun _ _ => rfl) (fun _ _ len => Nat.div_one len)
        hlen (fun array k b _ h => ?_) hlook
      unfold boolAt
      rw [h]
    | doubles l =>
      refine has_elements (f := (.double · 0)) hvalid (fun _ _ => rfl) (fun _ _ len => Nat.div_one len)
        hlen (fun array k b _ h => ?_) hlook
      unfold doubleAt
      rw [h]
    | texts l => exact got_texts hvalid (by rwa [Elements.items, List.length_map] at hlen) hlook
    | bytes l =>
      exact has_elements (f := byteItem) hvalid.1 (fun _ _ => rfl)
        (fun _ _ len => Nat.mul_div_cancel len hitem) hlen (fun _ _ s hs => bytes_read (hvalid.2 s hs))
        hlook
  · refine iff_of_false (fun hgot => ?_) hcount
    cases whole with
    | false => cases e <;> exact hcount trivial
    | true =>
      cases e with
      | texts l =>
        -- what is written are as many items as an `int` counts, and the array has another length
        have hlong : ¬ l.length < 2^31 := hcount
        obtain ⟨array, hget, -⟩ := hgot
        rw [List.length_map] at hget
        have hget : getArray ocRepString (stringArrayItemMaxLen d) rep key = some (array, l.length) := hget
        by_cases hne : (Elements.written true (.texts l)).items = []
        · rw [hne] at hlook
          rw [getArray_none (by decide) hlook] at hget
          cases hget
        · have hunits : ∀ i ∈ (Elements.written true (.texts l)).items, ∀ len,
              i.units d len / stringArrayItemMaxLen d = len := by
            intro i hi len
            obtain ⟨s, -, rfl⟩ := List.mem_map.mp hi
            exact Nat.mul_div_cancel len hitem
          have hcode : ∀ i ∈ (Elements.written true (.texts l)).items, i.code = ocRepString :=
            fun i hi => (written_clean hvalid true i hi).2
          obtain ⟨p, n, hsome⟩ := getArray_node hne hcode hunits hlen hlook
          rw [hsome] at hget
          have hlength := (Prod.mk.inj (Option.some.inj hget)).2
          omega
      | _ => exact hcount trivial

/-! ## objects -/

variable {type : Nat} {c : Encoder}

/-- the node of a value is the one that its key finds -/
theorem get_value (v : Value) {rest : OcRep} (hrest : ocRepGetValue type key rest = none) :
    ocRepGetValue type key ((v.node d key.name).link rest) =
      ocRepGetValue type key (v.node d key.name) := by
  have hnode : ∀ {t : Nat} {value : RepValue} {object : OcRep},
      ocRepGetValue type key (.node t key.name value object rest) =
        ocRepGetValue type key (.node t key.name value object .null) := by
    intro t value object
    by_cases ht : t = type
    · rw [ht, get_key, get_key]
    · rw [get_type ht, get_type ht, hrest]
      rfl
  cases v with
  | array whole e =>
    show ocRepGetValue type key ((arrayNode d key.name _).link rest) =
      ocRepGetValue type key (arrayNode d key.name _)
    cases (e.written whole).items <;> exact hnode
  | _ => exact hnode

theorem get_rest {key' : CString} (v : Value) {rest : OcRep} (h : key' ≠ key) :
    ocRepGetValue type key ((v.node d key'.name).link rest) = ocRepGetValue type key rest := by
  cases v with
  | array whole e =>
    show ocRepGetValue type key ((arrayNode d key'.name _).link rest) = _
    cases (e.written whole).items <;> exact get_other h
  | _ => exact get_other h

/-- a key that has not been set is not found -/
theorem get_none : ∀ ms : Members, key ∉ ms.keys → ocRepGetValue type key (ms.rep d) = none
  | .nil, _ => rfl
  | .cons key' v ms, h => by
    have hne : key' ≠ key := fun heq => h (List.mem_cons.mpr (Or.inl heq.symm))
    have hrest : key ∉ ms.keys := fun hmem => h (List.mem_cons_of_mem key' hmem)
    exact (get_rest v hne).trans (get_none ms hrest)

theorem length_le_cost (items : List (CborItem × CborValue)) : items.length ≤ c.cost (view items) := by
  induction items with
  | nil => exact Nat.le_refl 0
  | cons i items ih =>
    have hdata := c.data_lt i.1
    show items.length + 1 ≤ c.bytes i.1 + c.cost i.2 + i.1.breakBytes + c.cost (view items)
    omega

/-- a value without arrays -/
theorem plainly {P : Prop} (h : P) : P ↔ ∀ a ∈ ([] : List (Bool × Elements)), a.2.Counted a.1 :=
  iff_of_true h fun _ h => absurd h List.not_mem_nil

theorem exists_some {x : OcRep} {P : OcRep → Prop} : (∃ y, some x = some y ∧ P y) ↔ P x :=
  ⟨fun ⟨_, hy, h⟩ => Option.some.inj hy ▸ h, fun h => ⟨x, rfl, h⟩⟩

mutual

theorem got_value_iff (key : CString) (rep : OcRep) : ∀ v : Value, v.Valid d →
    c.cost (view [v.item]) < 2^31 →
    (∀ type, ocRepGetValue type key rep = ocRepGetValue type key (v.node d key.name)) →
    (v.Got d rep key ↔ ∀ a ∈ v.arrays, a.2.Counted a.1)
  | .int v, hvalid, _, hlook => by
    have hget := (hlook ocRepInt).trans get_key
    refine plainly (show ocRepGetInt rep key = some (v : Int) from ?_)
    unfold ocRepGetInt
    rw [hget]
    exact congrArg some (asInt_of_inRange hvalid)
  | .uint v, hvalid, _, hlook => by
    have hget := (hlook ocRepInt).trans get_key
    refine plainly (show ocRepGetInt rep key = some (v : Int) from ?_)
    unfold ocRepGetInt
    rw [hget]
    exact congrArg some (asInt_of_inRange hvalid)
  | .boolean b, _, _, hlook => by
    have hget := (hlook ocRepBool).trans get_key
    refine plainly (show ocRepGetBool rep key = some b from ?_)
    unfold ocRepGetBool
    rw [hget]
  | .double bits, _, _, hlook => by
    have hget := (hlook ocRepDouble).trans get_key
    refine plainly (show ocRepGetDouble rep key = some bits from ?_)
    unfold ocRepGetDouble
    rw [hget]
  | .textString s, _, _, hlook => by
    have hget := (hlook ocRepString).trans get_key
    refine plainly (show ocRepGetString rep key = some (s.bytes, s.bytes.length) from ?_)
    unfold ocRepGetString getString
    rw [hget]
    rfl
  | .byteString s, _, _, hlook => by
    have hget := (hlook ocRepByteString).trans get_key
    refine plainly (show ocRepGetByteString rep key = some (s, s.length) from ?_)
    unfold ocRepGetByteString getString
    rw [hget]
    rfl
  | .array whole e, hvalid, hcost, hlook => by
    have hlen : (e.written whole).items.length < 2^31 := by
      have hplain : (plain (e.written whole).items).length = (e.written whole).items.length :=
        List.length_map _
      rw [← hplain]
      exact Nat.lt_of_le_of_lt (length_le_cost _) (Nat.lt_of_le_of_lt content_le_cost hcost)
    show e.Got d rep key ↔ ∀ a ∈ [(whole, e)], a.2.Counted a.1
    rw [got_elements_iff hvalid hlen hlook, List.forall_mem_singleton]
  | .object ms, hvalid, hcost, hlook => by
    have hget : ocRepGetObject rep key = some (ms.rep d) :=
      congrArg (Option.map fun x : RepValue × OcRep => x.2) ((hlook ocRepObject).trans get_key)
    have hmembers := got_members_iff (ms.rep d) ms hvalid (Nat.lt_of_le_of_lt content_le_cost hcost)
      fun _ _ _ => rfl
    show (∃ object, ocRepGetObject rep key = some object ∧ ms.Got d object) ↔
      ∀ a ∈ ms.arrays, a.2.Counted a.1
    rw [hget, ← hmembers]
    exact exists_some
  | .objects os, hvalid, hcost, hlook => by
    have hget : ocRepGetObjectArray rep key = some (linkObjects (os.list d)) :=
      congrArg (Option.map fun x : RepValue × OcRep => x.2)
        ((hlook (ocRepObject ||| ocRepArray)).trans get_key)
    have hobjects := got_objects_iff os hvalid.2 (Nat.lt_of_le_of_lt content_le_cost hcost)
    show (∃ object, ocRepGetObjectArray rep key = some object ∧ os.Got d object) ↔
      ∀ a ∈ os.arrays, a.2.Counted a.1
    rw [hget, ← hobjects]
    exact exists_some

theorem got_members_iff (rep : OcRep) : ∀ ms : Members, ms.Valid d → c.cost (view ms.items) < 2^31 →
    (∀ key ∈ ms.keys, ∀ type, ocRepGetValue type key rep = ocRepGetValue type key (ms.rep d)) →
    (ms.Got d rep ↔ ∀ a ∈ ms.arrays, a.2.Counted a.1)
  | .nil, _, _, _ => iff_of_true trivial fun _ h => absurd h List.not_mem_nil
  | .cons key v ms, hvalid, hcost, hlook => by
    obtain ⟨hnew, hv, hms⟩ := hvalid
    have hcost : c.cost (view (v.item :: ms.items)) < 2^31 := Nat.lt_of_le_of_lt rest_le_cost hcost
    have hfirst : c.cost (view [v.item]) < 2^31 := Nat.lt_of_le_of_lt first_le_cost hcost
    have hvalue := got_value_iff key rep v hv hfirst fun type =>
      (hlook key List.mem_cons_self type).trans (get_value v (get_none ms hnew))
    have hrest := got_members_iff rep ms hms (Nat.lt_of_le_of_lt rest_le_cost hcost) fun key' hkey' type =>
      (hlook key' (List.mem_cons_of_mem key hkey') type).trans
        (get_rest v fun heq => hnew (heq ▸ hkey'))
    show v.Got d rep key ∧ ms.Got d rep ↔ ∀ a ∈ v.arrays ++ ms.arrays, a.2.Counted a.1
    rw [hvalue, hrest, List.forall_mem_append]

theorem got_objects_iff : ∀ os : Objects, os.Valid d → c.cost (view os.items) < 2^31 →
    (os.Got d (linkObjects (os.list d)) ↔ ∀ a ∈ os.arrays, a.2.Counted a.1)
  | .nil, _, _ => iff_of_true rfl fun _ h => absurd h List.not_mem_nil
  | .cons ms os, hvalid, hcost => by
    have hmembers := got_members_iff (ms.rep d) ms hvalid.1 (Nat.lt_of_le_of_lt content_le_cost hcost)
      fun _ _ _ => rfl
    have hobjects := got_objects_iff os hvalid.2 (Nat.lt_of_le_of_lt rest_le_cost hcost)
    show (∃ type name value object next,
      linkObjects (ms.rep d :: os.list d) = .node type name value object next ∧
        ms.Got d object ∧ os.Got d next) ↔ ∀ a ∈ ms.arrays ++ os.arrays, a.2.Counted a.1
    rw [List.forall_mem_append, ← hmembers, ← hobjects]
    constructor
    · rintro ⟨_, _, _, _, _, hnode, hgot⟩
      obtain ⟨-, -, -, rfl, rfl⟩ := OcRep.node.inj hnode
      exact hgot
    · exact fun hgot => ⟨_, _, _, _, _, rfl, hgot⟩

end

end

end Payload
