import Iotivity.Payload.Allocations

/-!
# The tree of an object

* `Valid`              objects that can be read back: integers in the range of `int`, arrays that are
                       not empty, items that fit into their slots, different keys;
* `node`, `rep`        the nodes that an object is parsed to;
* `allocs`             what is allocated for them;
* `members_go`         the parser makes the tree.
-/

namespace Payload
open Triple

/-! ## objects that can be read back -/

/-- an `int` -/
def InRange (v : Int) : Prop := -2^31 ≤ v ∧ v < 2^31

instance (v : Int) : Decidable (InRange v) := inferInstanceAs (Decidable (_ ∧ _))

theorem asInt_of_inRange {v : Int} (h : InRange v) : asInt v = v :=
  Int.bmod_eq_of_le (by have := h.1; omega) (by have := h.2; omega)

section
variable (d : Bool)

/-- an item of an array of strings -/
def Fitting (s : List UInt8) : Prop := s ≠ [] ∧ s.length < stringArrayItemMaxLen d

instance (s : List UInt8) : Decidable (Fitting d s) := inferInstanceAs (Decidable (_ ∧ _))

def Elements.Valid : Elements → Prop
  | .ints l => l ≠ [] ∧ ∀ v ∈ l, InRange v
  | .bools l => l ≠ []
  | .doubles l => l ≠ []
  | .texts l => l ≠ [] ∧ ∀ s ∈ l, Fitting d s.bytes
  | .bytes l => l ≠ [] ∧ ∀ s ∈ l, Fitting d s

def Members.keys : Members → List CString
  | .nil => []
  | .cons key _ ms => key :: ms.keys

mutual

def Value.Valid : Value → Prop
  | .int v => InRange v
  | .uint v => InRange v
  | .array _ e => e.Valid d
  | .object ms => ms.Valid
  | .objects os => os ≠ .nil ∧ os.Valid
  | _ => True

def Members.Valid : Members → Prop
  | .nil => True
  | .cons key v ms => key ∉ ms.keys ∧ v.Valid ∧ ms.Valid

def Objects.Valid : Objects → Prop
  | .nil => True
  | .cons ms os => ms.Valid ∧ os.Valid

end

/-! ## the tree -/

/-- the node of an array; without elements, nothing is allocated and no type is set -/
def arrayNode (name : OcString) : List CborItem → OcRep
  | [] => .node ocRepNil name .none .null .null
  | i :: items => .node (i.code ||| ocRepArray) name
      (.array i.pool (i.units d (items.length + 1)) (indexed 0 (i :: items))) .null .null

def arrayAllocs : List CborItem → List Alloc
  | [] => []
  | i :: items => [.block i.pool (i.units d (items.length + 1))]

/-- `cur->name` -/
def CString.name (key : CString) : OcString := ⟨key.bytes.length + 1, key.bytes⟩

mutual

def Value.node (name : OcString) : Value → OcRep
  | .int v => .node ocRepInt name (.integer (asInt v)) .null .null
  | .uint v => .node ocRepInt name (.integer (asInt v)) .null .null
  | .boolean b => .node ocRepBool name (.boolean b) .null .null
  | .double bits => .node ocRepDouble name (.double bits) .null .null
  | .textString s => .node ocRepString name (.string (s.bytes.length + 1) s.bytes) .null .null
  | .byteString s => .node ocRepByteString name (.string (s.length + 1) s) .null .null
  | .array whole e => arrayNode d name (e.written whole).items
  | .object ms => .node ocRepObject name .none ms.rep .null
  | .objects os => .node (ocRepObject ||| ocRepArray) name .none (linkObjects os.list) .null

def Members.rep : Members → OcRep
  | .nil => .null
  | .cons key v ms => (v.node key.name).link ms.rep

def Objects.list : Objects → List OcRep
  | .nil => []
  | .cons ms os => ms.rep :: os.list

end

mutual

def Value.allocs : Value → List Alloc
  | .textString s => [.block .byte (s.bytes.length + 1)]
  | .byteString s => [.block .byte (s.length + 1)]
  | .array whole e => arrayAllocs d (e.written whole).items
  | .object ms => ms.allocs
  | .objects os => os.allocs
  | _ => []

def Members.allocs : Members → List Alloc
  | .nil => []
  | .cons key v ms => .node :: .block .byte (key.bytes.length + 1) :: (v.allocs ++ ms.allocs)

def Objects.allocs : Objects → List Alloc
  | .nil => []
  | .cons ms os => .node :: (ms.allocs ++ os.allocs)

end

end

/-! ## the elements of an array -/

section
variable {d : Bool}

theorem textItemLength_of_fitting {s : List UInt8} (h : Fitting d s) :
    textItemLength d ⟨s.length, 0, s, 0⟩ = s.length + 1 :=
  if_neg (Nat.not_lt.mpr (Nat.succ_le_of_lt h.2))

theorem byteItemLength_of_fitting {s : List UInt8} (h : Fitting d s) :
    byteItemLength d ⟨s.length, 0, s, 0⟩ = s.length :=
  if_neg (Nat.not_le.mpr h.2)

theorem clean_text {s : List UInt8} (h : Fitting d s) : (textItem s).Clean d := by
  refine ⟨rfl, ?_⟩
  rw [textItemLength_of_fitting h, copy_enough s (Nat.le_succ _)]

theorem clean_bytes {s : List UInt8} (h : Fitting d s) : (byteItem s).Clean d := by
  refine ⟨rfl, ?_⟩
  rw [byteItemLength_of_fitting h, copy_enough s (Nat.le_refl _)]

/-- the code of the kind of an array -/
def Elements.code : Elements → Nat
  | .ints _ => ocRepInt
  | .bools _ => ocRepBool
  | .doubles _ => ocRepDouble
  | .texts _ => ocRepString
  | .bytes _ => ocRepByteString

/-- what is written of an array is of its kind, and nothing is wrong with it -/
theorem written_clean {e : Elements} (h : e.Valid d) (whole : Bool) :
    ∀ i ∈ (e.written whole).items, i.Clean d ∧ i.code = e.code := by
  have htexts : ∀ l : List CString, (∀ s ∈ l, Fitting d s.bytes) →
      ∀ i ∈ (Elements.texts l).items, i.Clean d ∧ i.code = ocRepString := by
    intro l hl i hi
    obtain ⟨s, hs, rfl⟩ := List.mem_map.mp hi
    exact ⟨clean_text (hl s hs), rfl⟩
  have hmap : ∀ {α : Type} (f : α → CborItem) (l : List α) (code : Nat),
      (∀ x ∈ l, (f x).Clean d ∧ (f x).code = code) → ∀ i ∈ l.map f, i.Clean d ∧ i.code = code := by
    intro α f l code hl i hi
    obtain ⟨x, hx, rfl⟩ := List.mem_map.mp hi
    exact hl x hx
  cases e with
  | ints l => cases whole <;> exact hmap intItem l _ fun _ _ => ⟨rfl, rfl⟩
  | bools l => cases whole <;> exact hmap (.boolean · 0) l _ fun _ _ => ⟨rfl, rfl⟩
  | doubles l => cases whole <;> exact hmap (.double · 0) l _ fun _ _ => ⟨rfl, rfl⟩
  | bytes l => cases whole <;> exact hmap byteItem l _ fun s hs => ⟨clean_bytes (h.2 s hs), rfl⟩
  | texts l =>
    cases whole with
    | false => exact htexts l h.2
    | true => exact htexts _ fun s hs => h.2 s (List.mem_of_mem_take (List.mem_filter.mp hs).1)

/-- the length that an array says is the one that is written -/
theorem form_length (whole : Bool) (e : Elements) : ∃ length, e.form whole = .array length ∧
    (length = none ∨ length = some (plain (e.written whole).items).length) := by
  cases whole with
  | false => cases e <;> exact ⟨none, rfl, Or.inl rfl⟩
  | true =>
    have hplain : ∀ {α : Type} (f : α → CborItem) (l : List α),
        some l.length = some (plain (l.map f)).length := by
      intro α f l
      unfold plain
      rw [List.length_map, List.length_map]
    cases e with
    | ints l => exact ⟨some l.length, rfl, Or.inr (hplain intItem l)⟩
    | bools l => exact ⟨some l.length, rfl, Or.inr (hplain (.boolean · 0) l)⟩
    | doubles l => exact ⟨some l.length, rfl, Or.inr (hplain (.double · 0) l)⟩
    | texts l => exact ⟨none, rfl, Or.inl rfl⟩
    | bytes l => exact ⟨none, rfl, Or.inl rfl⟩

/-- an array as a value -/
theorem parseArray_goes {items : List CborItem} {code : Nat} {length : Option Nat} {next : CborValue}
    (hclean : ∀ i ∈ items, i.Clean d ∧ i.code = code)
    (hlength : length = none ∨ length = some (plain items).length) (name : OcString) :
    Goes (parseValue d name (.item (.array length) 0 (view (plain items)) 0 next)) (arrayAllocs d items)
      (arrayNode d name items) := by
  unfold parseValue
  refine goes_orError ?_
  refine (arrayLength_goes hlength).behind ?_
  cases items with
  | nil => exact Goes.pure.behind Goes.pure
  | cons i items =>
    obtain ⟨hi, hcode⟩ := hclean i List.mem_cons_self
    have hlen : (plain (i :: items)).length = items.length + 1 := List.length_map _
    rw [hlen]
    refine (parseElements_first hi fun j hj => ?_).last Goes.pure
    rw [hcode]
    exact hclean j (List.mem_cons_of_mem i hj)

/-! ## members and objects -/

/-- one member, and those behind it -/
theorem parseMember_goes {key : CString} {i : CborItem} {content next : CborValue} {rep reps : OcRep}
    {as bs : List Alloc} {site : Site} (hkey : key.bytes.length < 2^31) (hrep : rep ≠ .null)
    (hvalue : Goes (parseValue d key.name (.item i 0 content 0 next)) as rep)
    (hnext : Goes (parseMembers d site next) bs (reps, false)) :
    Goes (parseMembers d site (.item (textItem key.bytes) 0 .atEnd 0 (.item i 0 content 0 next)))
      (.node :: .block .byte (key.bytes.length + 1) :: (as ++ bs)) (rep.link reps, false) := by
  unfold parseMembers
  rw [if_neg fun h => Bool.noConfusion h.2]
  refine (parseKey_goes hkey hvalue).bind (goes_leaveMembers hrep ?_)
  rw [if_neg (by decide), if_pos rfl]
  exact goes_orError (hnext.last Goes.pure)

/-- one object of an array, and those behind it -/
theorem parseObject_goes {content next : CborValue} {len k : Nat} {cur out : Cur} {value : RepValue}
    {objects : List OcRep} {members : OcRep} {as bs : List Alloc}
    (hcur : (if k = 0 then { cur with type := ocRepObject ||| ocRepArray } else cur) =
      ⟨ocRepObject ||| ocRepArray, value, objects⟩)
    (hmembers : Goes (parseMembers d .object content) as (members, false))
    (hnext : Goes (parseElements d len next (k + 1)
      ⟨ocRepObject ||| ocRepArray, value, objects ++ [members]⟩) bs out) :
    Goes (parseElements d len (.item .map 0 content 0 next) k cur) (.node :: (as ++ bs)) out := by
  unfold parseElements
  show Goes (let cur := if k = 0 then { cur with type := ocRepObject ||| ocRepArray } else cur; _) _ _
  rw [hcur]
  show Goes (if (ocRepObject ||| ocRepArray) &&& ocRepObject ≠ ocRepObject then _ else _) _ _
  rw [if_neg (not_not_intro (or_and_self _ _))]
  refine goes_allocRep ?_
  rw [if_neg (by decide)]
  refine goes_orError (hmembers.bind ?_)
  exact goes_failed (goes_orError hnext)

/-! ## the parser makes the tree -/

theorem node_ne_null (name : OcString) (v : Value) : v.node d name ≠ .null := by
  cases v with
  | array whole e =>
    show arrayNode d name _ ≠ .null
    cases (e.written whole).items <;> exact OcRep.noConfusion
  | _ => exact OcRep.noConfusion

variable {c : Encoder} {i : CborItem} {content : CborValue} {items : List (CborItem × CborValue)}

theorem data_lt_cost : i.data.length < c.cost (view ((i, content) :: items)) := by
  have hdata := c.data_lt i
  show _ < c.bytes i + c.cost content + i.breakBytes + c.cost (view items)
  omega

theorem content_le_cost : c.cost content ≤ c.cost (view ((i, content) :: items)) := by
  show _ ≤ c.bytes i + c.cost content + i.breakBytes + c.cost (view items)
  omega

theorem first_le_cost : c.cost (view [(i, content)]) ≤ c.cost (view ((i, content) :: items)) := by
  show _ + 0 ≤ _ + c.cost (view items)
  omega

theorem rest_le_cost : c.cost (view items) ≤ c.cost (view ((i, content) :: items)) :=
  Nat.le_add_left _ _

mutual

theorem value_goes (name : OcString) (next : CborValue) : ∀ v : Value, v.Valid d →
    c.cost (view [v.item]) < 2^31 →
    Goes (parseValue d name (.item v.item.1 0 v.item.2 0 next)) (v.allocs d) (v.node d name)
  | .int v, _, _ => by
    unfold parseValue
    exact goes_orError Goes.pure
  | .uint v, _, _ => by
    unfold parseValue
    exact goes_orError Goes.pure
  | .boolean b, _, _ => by
    unfold parseValue
    exact goes_orError Goes.pure
  | .double bits, _, _ => by
    unfold parseValue
    exact goes_orError Goes.pure
  | .textString s, _, hcost => by
    have hs : s.bytes.length < 2^31 := Nat.lt_trans (data_lt_cost (i := textItem s.bytes)) hcost
    unfold parseValue
    exact (parseString_goes hs).last Goes.pure
  | .byteString s, _, hcost => by
    have hs : s.length < 2^31 := Nat.lt_trans (data_lt_cost (i := byteItem s)) hcost
    unfold parseValue
    exact (parseString_goes hs).last Goes.pure
  | .array whole e, hvalid, _ => by
    obtain ⟨length, hform, hlength⟩ := form_length whole e
    show Goes (parseValue d name (.item (e.form whole) 0 _ 0 next)) _ _
    rw [hform]
    exact parseArray_goes (written_clean hvalid whole) hlength name
  | .object ms, hvalid, hcost => by
    have hmembers := members_go .property ms hvalid (Nat.lt_of_le_of_lt content_le_cost hcost)
    unfold parseValue
    exact goes_orError (hmembers.last Goes.pure)
  | .objects .nil, hvalid, _ => absurd rfl hvalid.1
  | .objects (.cons ms os), hvalid, hcost => by
    have hcost : c.cost (view ((.map, view ms.items) :: os.items)) < 2^31 :=
      Nat.lt_of_le_of_lt content_le_cost hcost
    have hmembers := members_go .object ms hvalid.2.1 (Nat.lt_of_le_of_lt content_le_cost hcost)
    have hobjects := fun len => objects_go len os 1 [ms.rep d] Nat.one_ne_zero hvalid.2.2
      (Nat.lt_of_le_of_lt rest_le_cost hcost)
    unfold parseValue
    refine goes_orError ((arrayLength_goes (Or.inl rfl)).behind ?_)
    exact Goes.last (parseObject_goes rfl hmembers (hobjects _)) Goes.pure

theorem members_go (site : Site) : ∀ ms : Members, ms.Valid d → c.cost (view ms.items) < 2^31 →
    Goes (parseMembers d site (view ms.items)) (ms.allocs d) (ms.rep d, false)
  | .nil, _, _ => Goes.pure
  | .cons key v ms, hvalid, hcost => by
    obtain ⟨-, hv, hms⟩ := hvalid
    have hrest : c.cost (view (v.item :: ms.items)) < 2^31 := Nat.lt_of_le_of_lt rest_le_cost hcost
    have hkey : key.bytes.length < 2^31 := Nat.lt_trans (data_lt_cost (i := textItem key.bytes)) hcost
    refine parseMember_goes hkey (node_ne_null key.name v) ?_ ?_
    · exact value_goes key.name (view ms.items) v hv (Nat.lt_of_le_of_lt first_le_cost hrest)
    · exact members_go site ms hms (Nat.lt_of_le_of_lt rest_le_cost hrest)

theorem objects_go (len : Nat) : ∀ (os : Objects) (k : Nat) (objects : List OcRep), k ≠ 0 →
    os.Valid d → c.cost (view os.items) < 2^31 →
    Goes (parseElements d len (view os.items) k ⟨ocRepObject ||| ocRepArray, .none, objects⟩)
      (os.allocs d) ⟨ocRepObject ||| ocRepArray, .none, objects ++ os.list d⟩
  | .nil, _, objects, _, _, _ => by
    rw [Objects.list, List.append_nil]
    exact Goes.pure
  | .cons ms os, k, objects, hk, hvalid, hcost => by
    have hmembers := members_go .object ms hvalid.1 (Nat.lt_of_le_of_lt content_le_cost hcost)
    have hobjects := objects_go len os (k + 1) (objects ++ [ms.rep d]) (Nat.succ_ne_zero k) hvalid.2
      (Nat.lt_of_le_of_lt rest_le_cost hcost)
    rw [List.append_assoc] at hobjects
    exact parseObject_goes (if_neg hk) hmembers hobjects

end

end

end Payload
