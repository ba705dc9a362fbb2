import Iotivity.Payload.Arrays

/-!
# The macros of `oc_rep.h`

An object is built by macros that call tinycbor and collect its errors in `g_err`.  A macro that opens a
container and the one that closes it are one definition here, with what stands between them.

* `Encoder`                    the encoder of tinycbor;
* `Value`, `Members`           what is built;
* `encode`                     the calls of the macros that build it;
* `Builds`                     a builder that writes items;
* `encode_eq`, `encode_err`    what is written, and when `g_err` says that the buffer is too small.
-/

namespace Payload

/-! ## tinycbor -/

/-- the bytes of a string -/
def CborItem.data : CborItem → List UInt8
  | .byteString s => s.data
  | .textString s => s.data
  | _ => []

/-- the byte at the end of a container of indefinite length -/
def CborItem.breakBytes : CborItem → Nat
  | .map => 1
  | .array none => 1
  | _ => 0

/-- The encoder.  The size of the buffer is an `int`; `bytes` are those that an item takes, without the ones
of its content. -/
structure Encoder where
  size : Nat
  bytes : CborItem → Nat
  size_lt : size < 2^31
  data_lt : ∀ i, i.data.length < bytes i

/-- what is read of items and their contents once they have been written -/
def view (items : List (CborItem × CborValue)) : CborValue :=
  items.foldr (fun i next => .item i.1 0 i.2 0 next) .atEnd

/-- `g_err`, the bytes that have been written so far, with those that the buffer has no room for, and the
items of the container that is open -/
structure Encoding where
  err : CborError
  used : Nat
  items : List (CborItem × CborValue)

abbrev Builder := StateM Encoding

section
variable (c : Encoder)

def Encoder.error (used : Nat) : CborError := if c.size < used then cborErrorOutOfMemory else 0

/-- bytes are written, and `g_err |= …` -/
def Encoder.write (n : Nat) : Builder Unit := modify fun e =>
  { e with err := e.err ||| c.error (e.used + n), used := e.used + n }

/-- `cbor_encode_int`, `cbor_encode_text_string` and so on -/
def cborEncode (i : CborItem) : Builder Unit := do
  c.write (c.bytes i)
  modify fun e => { e with items := e.items ++ [(i, .atEnd)] }

/-- `cbor_encoder_create_map` or `cbor_encoder_create_array`, what is written with the new encoder, and
`cbor_encoder_close_container` -/
def cborContainer (i : CborItem) (content : Builder Unit) : Builder Unit := do
  let outer ← get
  c.write (c.bytes i)
  modify fun e => { e with items := [] }
  content
  c.write i.breakBytes
  modify fun e => { e with items := outer.items ++ [(i, view e.items)] }

/-! ## macros -/

/-- a string that ends in NUL, without it -/
structure CString where
  bytes : List UInt8
  noNul : 0 ∉ bytes
deriving DecidableEq

/-- `(int)` -/
def asInt (v : Int) : Int := v.bmod (2^32)

/-- an integer, as the `int` that `cbor_value_get_int` makes of it -/
def intItem (v : Int) : CborItem := .integer (asInt v) 0

def textItem (s : List UInt8) : CborItem := .textString ⟨s.length, 0, s, 0⟩
def byteItem (s : List UInt8) : CborItem := .byteString ⟨s.length, 0, s, 0⟩

/-- a key and a value behind it -/
def setItem (key : CString) (i : CborItem) : Builder Unit := do
  cborEncode c (textItem key.bytes)
  cborEncode c i

def ocRepSetDouble (key : CString) (value : UInt64) : Builder Unit := setItem c key (.double value 0)
def ocRepSetInt (key : CString) (value : Int) : Builder Unit := setItem c key (intItem value)
def ocRepSetUint (key : CString) (value : Nat) : Builder Unit := setItem c key (intItem value)
def ocRepSetBoolean (key : CString) (value : Bool) : Builder Unit := setItem c key (.boolean value 0)

def ocRepSetTextString (key : CString) (value : Option CString) : Builder Unit :=
  match value with
  | none => pure ()
  | some s => setItem c key (textItem s.bytes)

def ocRepSetByteString (key : CString) (value : List UInt8) : Builder Unit :=
  setItem c key (byteItem value)

def ocRepAddByteString (value : Option (List UInt8)) : Builder Unit :=
  match value with
  | none => pure ()
  | some s => cborEncode c (byteItem s)

def ocRepAddTextString (value : Option CString) : Builder Unit :=
  match value with
  | none => pure ()
  | some s => cborEncode c (textItem s.bytes)

def ocRepAddDouble (value : UInt64) : Builder Unit := cborEncode c (.double value 0)
def ocRepAddInt (value : Int) : Builder Unit := cborEncode c (intItem value)
def ocRepAddBoolean (value : Bool) : Builder Unit := cborEncode c (.boolean value 0)

/-- a key and a container behind it -/
def setContainer (key : CString) (i : CborItem) (content : Builder Unit) : Builder Unit := do
  cborEncode c (textItem key.bytes)
  cborContainer c i content

/-- `oc_rep_open_array` and `oc_rep_close_array` -/
def ocRepOpenArray (key : CString) (elements : Builder Unit) : Builder Unit :=
  setContainer c key (.array none) elements

/-- `oc_rep_open_object` and `oc_rep_close_object` -/
def ocRepOpenObject (key : CString) (members : Builder Unit) : Builder Unit :=
  setContainer c key .map members

/-- `oc_rep_object_array_begin_item` and `oc_rep_object_array_end_item` -/
def ocRepObjectArrayItem (members : Builder Unit) : Builder Unit := cborContainer c .map members

/-- `oc_rep_begin_root_object` and `oc_rep_end_root_object` -/
def ocRepRootObject (members : Builder Unit) : Builder Unit := cborContainer c .map members

/-- an array of known length -/
def setArray (key : CString) (items : List CborItem) : Builder Unit :=
  setContainer c key (.array (some items.length)) (items.forM (cborEncode c))

def ocRepSetIntArray (key : CString) (values : List Int) : Builder Unit :=
  setArray c key (values.map intItem)

def ocRepSetBoolArray (key : CString) (values : List Bool) : Builder Unit :=
  setArray c key (values.map (.boolean · 0))

def ocRepSetDoubleArray (key : CString) (values : List UInt64) : Builder Unit :=
  setArray c key (values.map (.double · 0))

/-- The loop runs to `(int)oc_string_array_get_allocated_size(values)`, and leaves out what is empty. -/
def ocRepSetStringArray (key : CString) (values : List CString) : Builder Unit :=
  setContainer c key (.array none) <| (values.take (asInt values.length).toNat).forM fun s =>
    if s.bytes.length > 0 then cborEncode c (textItem s.bytes) else pure ()

end

/-! ## what is built -/

inductive Elements where
  | ints (l : List Int)
  | bools (l : List Bool)
  | doubles (l : List UInt64)
  | texts (l : List CString)
  | bytes (l : List (List UInt8))

mutual

/-- The value of a key.  `whole` is an array that is set by one macro, and not opened, filled with
`oc_rep_add_*` and closed. -/
inductive Value where
  | int (v : Int)
  | uint (v : Nat)
  | boolean (b : Bool)
  | double (bits : UInt64)
  | textString (s : CString)
  | byteString (s : List UInt8)
  | array (whole : Bool) (elements : Elements)
  | object (members : Members)
  | objects (items : Objects)

/-- the members of an object, in the order of the calls -/
inductive Members where
  | nil
  | cons (key : CString) (value : Value) (rest : Members)

/-- the objects of an array -/
inductive Objects where
  | nil
  | cons (members : Members) (rest : Objects)

end

section
variable (c : Encoder)

def addElements : Elements → Builder Unit
  | .ints l => l.forM (ocRepAddInt c)
  | .bools l => l.forM (ocRepAddBoolean c)
  | .doubles l => l.forM (ocRepAddDouble c)
  | .texts l => l.forM fun s => ocRepAddTextString c (some s)
  | .bytes l => l.forM fun s => ocRepAddByteString c (some s)

/-- there is no `oc_rep_set_byte_string_array` -/
def setElements (key : CString) : Bool → Elements → Builder Unit
  | true, .ints l => ocRepSetIntArray c key l
  | true, .bools l => ocRepSetBoolArray c key l
  | true, .doubles l => ocRepSetDoubleArray c key l
  | true, .texts l => ocRepSetStringArray c key l
  | _, e => ocRepOpenArray c key (addElements c e)

mutual

def setValue (key : CString) : Value → Builder Unit
  | .int v => ocRepSetInt c key v
  | .uint v => ocRepSetUint c key v
  | .boolean b => ocRepSetBoolean c key b
  | .double bits => ocRepSetDouble c key bits
  | .textString s => ocRepSetTextString c key (some s)
  | .byteString s => ocRepSetByteString c key s
  | .array whole e => setElements c key whole e
  | .object ms => ocRepOpenObject c key (setMembers ms)
  | .objects os => ocRepOpenArray c key (addObjects os)

def setMembers : Members → Builder Unit
  | .nil => pure ()
  | .cons key v ms => do
    setValue key v
    setMembers ms

def addObjects : Objects → Builder Unit
  | .nil => pure ()
  | .cons ms os => do
    ocRepObjectArrayItem c (setMembers ms)
    addObjects os

end

/-- the object, from `oc_rep_new` to `oc_rep_end_root_object` -/
def encode (ms : Members) : Encoding := (ocRepRootObject c (setMembers c ms) ⟨0, 0, []⟩).2

end

/-! ## the items of an object -/

/-- the elements that are written of the ones that are set -/
def Elements.written : Bool → Elements → Elements
  | true, .texts l => .texts ((l.take (asInt l.length).toNat).filter (·.bytes.length > 0))
  | _, e => e

def Elements.items : Elements → List CborItem
  | .ints l => l.map intItem
  | .bools l => l.map (.boolean · 0)
  | .doubles l => l.map (.double · 0)
  | .texts l => l.map fun s => textItem s.bytes
  | .bytes l => l.map byteItem

/-- the array, with or without its length -/
def Elements.form : Bool → Elements → CborItem
  | true, .ints l => .array (some l.length)
  | true, .bools l => .array (some l.length)
  | true, .doubles l => .array (some l.length)
  | _, _ => .array none

/-- items without contents -/
def plain (items : List CborItem) : List (CborItem × CborValue) := items.map (·, .atEnd)

mutual

def Value.item : Value → CborItem × CborValue
  | .int v => (intItem v, .atEnd)
  | .uint v => (intItem v, .atEnd)
  | .boolean b => (.boolean b 0, .atEnd)
  | .double bits => (.double bits 0, .atEnd)
  | .textString s => (textItem s.bytes, .atEnd)
  | .byteString s => (byteItem s, .atEnd)
  | .array whole e => (e.form whole, view (plain (e.written whole).items))
  | .object ms => (.map, view ms.items)
  | .objects os => (.array none, view os.items)

def Members.items : Members → List (CborItem × CborValue)
  | .nil => []
  | .cons key v ms => (textItem key.bytes, .atEnd) :: v.item :: ms.items

def Objects.items : Objects → List (CborItem × CborValue)
  | .nil => []
  | .cons ms os => (.map, view ms.items) :: os.items

end

/-- what is read of the object -/
def Members.payload (ms : Members) : CborValue := view [(.map, view ms.items)]

/-! ## builders -/

section
variable (c : Encoder)

/-- the bytes of items, with those of their contents -/
def Encoder.cost : CborValue → Nat
  | .atEnd => 0
  | .item i _ content _ next => c.bytes i + cost content + i.breakBytes + cost next

/-- an encoding whose errors are those of the buffer -/
def Encoder.state (used : Nat) (items : List (CborItem × CborValue)) : Encoding :=
  ⟨c.error used, used, items⟩

/-- a builder that writes these items -/
def Builds (b : Builder Unit) (items : List (CborItem × CborValue)) : Prop :=
  ∀ used front, b (c.state used front) =
    ((), c.state (used + c.cost (view items)) (front ++ items))

variable {c} {b b' : Builder Unit} {items items' : List (CborItem × CborValue)}

theorem write_state (n used : Nat) (front : List (CborItem × CborValue)) :
    c.write n (c.state used front) = ((), c.state (used + n) front) := by
  have herror : c.error used ||| c.error (used + n) = c.error (used + n) := by
    unfold Encoder.error
    by_cases h : c.size < used
    · rw [if_pos h, if_pos (by omega)]
      exact Nat.or_self _
    · rw [if_neg h, Nat.zero_or]
  show ((), (⟨c.error used ||| c.error (used + n), used + n, front⟩ : Encoding)) = _
  rw [herror]
  rfl

theorem cost_append (items items' : List (CborItem × CborValue)) :
    c.cost (view (items ++ items')) = c.cost (view items) + c.cost (view items') := by
  induction items with
  | nil => exact (Nat.zero_add _).symm
  | cons i items ih =>
    show c.bytes i.1 + c.cost i.2 + i.1.breakBytes + c.cost (view (items ++ items')) =
      c.bytes i.1 + c.cost i.2 + i.1.breakBytes + c.cost (view items) + c.cost (view items')
    rw [ih, Nat.add_assoc _ (c.cost (view items))]

theorem builds_pure : Builds c (pure ()) [] := by
  intro used front
  rw [List.append_nil]
  rfl

theorem Builds.seq (h : Builds c b items) (h' : Builds c b' items') :
    Builds c (do b; b') (items ++ items') := by
  intro used front
  show (b' (b (c.state used front)).2) = _
  rw [h, h', cost_append, Nat.add_assoc, List.append_assoc]

theorem builds_item {i : CborItem} (hi : i.breakBytes = 0) : Builds c (cborEncode c i) [(i, .atEnd)] := by
  intro used front
  have hcost : c.cost (view [(i, .atEnd)]) = c.bytes i := by
    show c.bytes i + 0 + i.breakBytes + 0 = c.bytes i
    omega
  have hstep : cborEncode c i (c.state used front) =
      ((), (fun e : Encoding => { e with items := e.items ++ [(i, .atEnd)] })
        (c.write (c.bytes i) (c.state used front)).2) := rfl
  rw [hstep, write_state, hcost]
  rfl

theorem Builds.container (h : Builds c b items) (i : CborItem) :
    Builds c (cborContainer c i b) [(i, view items)] := by
  intro used front
  have hopen : cborContainer c i b (c.state used front) =
      ((), (fun e : Encoding => { e with items := front ++ [(i, view e.items)] })
        (c.write i.breakBytes
          (b { (c.write (c.bytes i) (c.state used front)).2 with items := [] }).2).2) := rfl
  have hnone : { (c.state (used + c.bytes i) front) with items := [] } =
      c.state (used + c.bytes i) [] := rfl
  have hcost : used + c.bytes i + c.cost (view items) + i.breakBytes =
      used + c.cost (view [(i, view items)]) := by
    show _ = used + (c.bytes i + c.cost (view items) + i.breakBytes + 0)
    omega
  rw [hopen, write_state, hnone, h, write_state, hcost]
  rfl

/-- items without contents, one after the other -/
theorem builds_forM {α : Type} {f : α → Builder Unit} {g : α → CborItem}
    (h : ∀ x, Builds c (f x) [(g x, .atEnd)]) (l : List α) : Builds c (l.forM f) (plain (l.map g)) := by
  induction l with
  | nil => exact builds_pure
  | cons x l ih => exact (h x).seq ih

theorem builds_setItem (key : CString) {i : CborItem} (hi : i.breakBytes = 0) :
    Builds c (setItem c key i) [(textItem key.bytes, .atEnd), (i, .atEnd)] :=
  (builds_item rfl).seq (builds_item hi)

theorem Builds.setContainer (h : Builds c b items) (key : CString) (i : CborItem) :
    Builds c (setContainer c key i b) [(textItem key.bytes, .atEnd), (i, view items)] :=
  (builds_item rfl).seq (h.container i)

theorem builds_setArray (key : CString) {l : List CborItem} (hl : ∀ i ∈ l, i.breakBytes = 0) :
    Builds c (setArray c key l)
      [(textItem key.bytes, .atEnd), (.array (some l.length), view (plain l))] := by
  refine Builds.setContainer ?_ key _
  induction l with
  | nil => exact builds_pure
  | cons i l ih =>
    exact (builds_item (hl i List.mem_cons_self)).seq (ih fun j hj => hl j (List.mem_cons_of_mem i hj))

theorem builds_setStringArray (key : CString) (l : List CString) :
    Builds c (ocRepSetStringArray c key l) [(textItem key.bytes, .atEnd),
      (.array none, view (plain (Elements.written true (.texts l)).items))] := by
  refine Builds.setContainer ?_ key _
  show Builds c _ (plain ((List.filter _ (l.take _)).map _))
  induction l.take (asInt l.length).toNat with
  | nil => exact builds_pure
  | cons s l ih =>
    by_cases hs : s.bytes.length > 0
    · have hitem : Builds c (if s.bytes.length > 0 then cborEncode c (textItem s.bytes) else pure ())
          [(textItem s.bytes, .atEnd)] := by
        rw [if_pos hs]
        exact builds_item rfl
      have hfilter : (s :: l).filter (·.bytes.length > 0) = s :: l.filter (·.bytes.length > 0) :=
        List.filter_cons_of_pos (decide_eq_true hs)
      rw [hfilter]
      exact hitem.seq ih
    · have hitem : Builds c (if s.bytes.length > 0 then cborEncode c (textItem s.bytes) else pure ())
          [] := by
        rw [if_neg hs]
        exact builds_pure
      have hfilter : (s :: l).filter (·.bytes.length > 0) = l.filter (·.bytes.length > 0) :=
        List.filter_cons_of_neg (by rwa [decide_eq_true_eq])
      rw [hfilter]
      exact hitem.seq ih

theorem builds_addElements (e : Elements) : Builds c (addElements c e) (plain e.items) := by
  cases e with
  | ints l => exact builds_forM (fun _ => builds_item rfl) l
  | bools l => exact builds_forM (fun _ => builds_item rfl) l
  | doubles l => exact builds_forM (fun _ => builds_item rfl) l
  | texts l => exact builds_forM (fun _ => builds_item rfl) l
  | bytes l => exact builds_forM (fun _ => builds_item rfl) l

theorem builds_setElements (key : CString) (whole : Bool) (e : Elements) :
    Builds c (setElements c key whole e)
      [(textItem key.bytes, .atEnd), (e.form whole, view (plain (e.written whole).items))] := by
  have hopen : Builds c (ocRepOpenArray c key (addElements c e))
      [(textItem key.bytes, .atEnd), (.array none, view (plain e.items))] :=
    (builds_addElements e).setContainer key _
  have hset : ∀ {α : Type} (f : α → CborItem) (l : List α), (∀ x, (f x).breakBytes = 0) →
      Builds c (setArray c key (l.map f))
        [(textItem key.bytes, .atEnd), (.array (some l.length), view (plain (l.map f)))] := by
    intro α f l hf
    have h := builds_setArray (c := c) key (l := l.map f) fun i hi => by
      obtain ⟨x, -, rfl⟩ := List.mem_map.mp hi
      exact hf x
    rwa [List.length_map] at h
  cases whole with
  | false => cases e <;> exact hopen
  | true =>
    cases e with
    | ints l => exact hset _ l fun _ => rfl
    | bools l => exact hset _ l fun _ => rfl
    | doubles l => exact hset _ l fun _ => rfl
    | texts l => exact builds_setStringArray key l
    | bytes l => exact hopen

mutual

theorem builds_value (key : CString) : ∀ v : Value,
    Builds c (setValue c key v) [(textItem key.bytes, .atEnd), v.item]
  | .int _ => builds_setItem key rfl
  | .uint _ => builds_setItem key rfl
  | .boolean _ => builds_setItem key rfl
  | .double _ => builds_setItem key rfl
  | .textString _ => builds_setItem key rfl
  | .byteString _ => builds_setItem key rfl
  | .array whole e => builds_setElements key whole e
  | .object ms => (builds_members ms).setContainer key .map
  | .objects os => (builds_objects os).setContainer key _

/-- the calls of the macros write the items of the object -/
theorem builds_members : ∀ ms : Members, Builds c (setMembers c ms) ms.items
  | .nil => builds_pure
  | .cons key v ms => (builds_value key v).seq (builds_members ms)

theorem builds_objects : ∀ os : Objects, Builds c (addObjects c os) os.items
  | .nil => builds_pure
  | .cons ms os => ((builds_members ms).container .map).seq (builds_objects os)

end

/-- what is written of an object, whatever the buffer holds -/
theorem encode_eq (ms : Members) :
    encode c ms = c.state (c.cost ms.payload) [(.map, view ms.items)] := by
  have hnew : (⟨0, 0, []⟩ : Encoding) = c.state 0 [] := rfl
  have h := (builds_members (c := c) ms).container .map 0 []
  rw [Nat.zero_add] at h
  show (cborContainer c .map (setMembers c ms) ⟨0, 0, []⟩).2 = _
  rw [hnew, h]
  rfl

/-- `g_err` says whether the buffer is large enough -/
theorem encode_err (ms : Members) : (encode c ms).err = 0 ↔ c.cost ms.payload ≤ c.size := by
  rw [encode_eq]
  show c.error _ = 0 ↔ _
  unfold Encoder.error
  by_cases h : c.size < c.cost ms.payload
  · rw [if_pos h]
    exact iff_of_false (by decide) (Nat.not_le_of_lt h)
  · rw [if_neg h]
    exact iff_of_true rfl (Nat.not_lt.mp h)

end

end Payload
