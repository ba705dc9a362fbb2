import Iotivity.Lib.Triple
import Mathlib.Algebra.Group.Int.Defs
import Mathlib.Algebra.Group.Nat.Defs

/-!
# `oc_parse_rep` and `oc_free_rep`

A payload is what tinycbor shows of it: a `CborValue` is an iterator, unfolded, with the errors that the
functions of tinycbor return on the way.  A payload that is not well formed is one with errors.

* `CborItem`, `CborValue`          items and iterators;
* `OcRep`                          an `oc_rep_t *`, and what hangs on it;
* `Pools`                          the pools that memory is taken from;
* `ocParseRep`, `ocFreeRep`        the two functions.
-/

namespace Payload

/-! ## tinycbor -/

/-- `CborError`: codes are collected with `|=`, and 0 is `CborNoError` -/
abbrev CborError := Nat

def cborErrorIllegalType : CborError := 260
def cborErrorOutOfMemory : CborError := 2^31

/-- a text or byte string: what `cbor_value_calculate_string_length` says, and what is copied -/
structure CborString where
  length : Nat
  lengthError : CborError
  data : List UInt8
  copyError : CborError

/-- `cbor_value_copy_text_string` and `cbor_value_copy_byte_string` into a buffer of this size -/
def CborString.copy (s : CborString) (size : Nat) : CborError × List UInt8 :=
  if size < s.length then (cborErrorOutOfMemory, []) else (s.copyError, s.data)

/-- `type`, with what the functions for this type return.

* `array`   `cbor_value_get_array_length`, which fails for arrays of indefinite length;
* `tag`     an item of its own, in front of the item that it belongs to;
* `other`   `null`, `undefined`, simple values, and floating-point numbers that are not doubles;
* `invalid` there is no item, because of an error. -/
inductive CborItem where
  | integer (v : Int) (error : CborError)
  | boolean (v : Bool) (error : CborError)
  | double (bits : UInt64) (error : CborError)
  | byteString (s : CborString)
  | textString (s : CborString)
  | map
  | array (length : Option Nat)
  | tag
  | other
  | invalid

def CborItem.isContainer : CborItem → Bool
  | .map => true
  | .array _ => true
  | _ => false

/-- A `CborValue` as an iterator: `cbor_value_at_end`, or an item; `enter` and `content` are what
`cbor_value_enter_container` gives, `advance` and `next` are what `cbor_value_advance` gives. -/
inductive CborValue where
  | atEnd
  | item (i : CborItem) (enter : CborError) (content : CborValue) (advance : CborError)
      (next : CborValue)

/-! ## representations -/

def ocRepNil : Nat := 0x00
def ocRepInt : Nat := 0x01
def ocRepDouble : Nat := 0x02
def ocRepBool : Nat := 0x03
def ocRepByteString : Nat := 0x04
def ocRepString : Nat := 0x05
def ocRepObject : Nat := 0x06
def ocRepArray : Nat := 0x08

/-- the pools of `oc_mmem.c` -/
inductive Pool where
  | byte
  | int
  | double
deriving DecidableEq

/-- the bytes of a unit -/
def Pool.width : Pool → Nat
  | .byte => 1
  | .int => 4
  | .double => 8

/-- the `value` of an `oc_rep_t`, its pointers apart.  `size` is the size of a handle, in units of its
pool; elements of an array stand with the index that they are stored at. -/
inductive RepValue where
  | none
  | integer (v : Int)
  | boolean (v : Bool)
  | double (bits : UInt64)
  | string (size : Nat) (data : List UInt8)
  | array (pool : Pool) (size : Nat) (elements : List (Nat × CborItem))

/-- `oc_string_t`; a size of 0 is a name that has not been allocated -/
structure OcString where
  size : Nat
  data : List UInt8

/-- An `oc_rep_t *`.  `object` is `value.object` or `value.object_array`. -/
inductive OcRep where
  | null
  | node (type : Nat) (name : OcString) (value : RepValue) (object next : OcRep)

def OcString.none : OcString := ⟨0, []⟩

/-- what `_alloc_rep` returns: `oc_memb_alloc` clears the block -/
def OcRep.blank : OcRep := .node ocRepNil .none .none .null .null

/-- `rep->next = next` -/
def OcRep.link : OcRep → OcRep → OcRep
  | .null, _ => .null
  | .node type name value object _, next => .node type name value object next

/-! ## memory -/

/-- What is in use: nodes, and for each pool units and handles.  With `OC_DYNAMIC_ALLOCATION` there are
no capacities. -/
structure Pools where
  repCapacity : Option Nat
  capacity : Pool → Option Nat
  reps : Nat
  units : Pool → Nat
  handles : Pool → Nat

/-- a store of an element into the block of its array, in bytes; there may be no block -/
structure Store where
  block : Nat
  offset : Nat
  length : Nat

def Store.Inside (s : Store) : Prop := s.offset + s.length ≤ s.block

instance (s : Store) : Decidable s.Inside := inferInstanceAs (Decidable (_ ≤ _))

/-- * `ocAssert`      an `oc_assert` has failed, and the program is aborted;
* `nullWrite`     a pointer is written through that is `NULL`;
* `notContainer`  `cbor_value_enter_container` is called for an item that is not a container. -/
inductive Fault where
  | ocAssert
  | nullWrite
  | notContainer
deriving DecidableEq

/-- The state of a parse.  `cut` says that the loop over the members of a map that is the value of a
property has been left at an error. -/
structure Run where
  err : CborError
  pools : Pools
  stores : List Store
  cut : Bool

abbrev Parser := EStateM Fault Run

/-- `*err |= e` -/
def orError (e : CborError) : Parser Unit := modify fun r => { r with err := r.err ||| e }

/-- `*err = e` -/
def setError (e : CborError) : Parser Unit := modify fun r => { r with err := e }

/-- `*err != CborNoError` -/
def failed : Parser Bool := do
  let r ← get
  return r.err != 0

/-- `_alloc_rep`; `false`: there is no block -/
def allocRep : Parser Bool := do
  let r ← get
  if r.pools.repCapacity.any (· ≤ r.pools.reps) then return false
  else
    set { r with pools := { r.pools with reps := r.pools.reps + 1 } }
    return true

def Pools.take (p : Pool) (n : Nat) (s : Pools) : Pools :=
  { s with
    units := fun q => if q = p then s.units q + n else s.units q
    handles := fun q => if q = p then s.handles q + 1 else s.handles q }

/-- `oc_malloc`, which asserts that it got something.  `_oc_mmem_alloc` returns 0 if there is no memory, and
the number of bytes as an `int` otherwise. -/
def ocMalloc (p : Pool) (n : Nat) : Parser Unit := do
  let r ← get
  if p.width * n % 2^32 = 0 ∨ (r.pools.capacity p).any (· < r.pools.units p + n) then throw .ocAssert
  else set { r with pools := r.pools.take p n }

/-- a store of an element -/
def store (s : Store) : Parser Unit := modify fun r => { r with stores := r.stores ++ [s] }

/-! ## parsing -/

section
variable (ocDynamicAllocation : Bool)

def stringArrayItemMaxLen : Nat := if ocDynamicAllocation then 128 else 32

/-- the array under construction: `cur->type`, `cur->value`, and the objects that have been parsed -/
structure Cur where
  type : Nat
  value : RepValue
  objects : List OcRep

/-- `k == 0`: a new array of `units`; otherwise the test of the type.  `none`: the element is refused -/
def openArray (code : Nat) (pool : Pool) (units k : Nat) (cur : Cur) : Parser (Option Cur) := do
  if k = 0 then
    ocMalloc pool units
    return some ⟨code ||| ocRepArray, .array pool units [], cur.objects⟩
  else if cur.type &&& code ≠ code then
    orError cborErrorIllegalType
    return none
  else return some cur

/-- the bytes that `oc_new_*_array` has allocated -/
def RepValue.block : RepValue → Nat
  | .array .int size _ => 4 * size
  | .array .double size _ => 8 * size
  | .array .byte size _ => size
  | _ => 0

def RepValue.put (k : Nat) (i : CborItem) : RepValue → RepValue
  | .array pool size elements => .array pool size (elements ++ [(k, i)])
  | v => v

def Cur.put (k : Nat) (i : CborItem) (cur : Cur) : Cur := { cur with value := cur.value.put k i }

/-- `oc_byte_string_array_get_item`: a byte for the length in front -/
def byteItemLength (s : CborString) : Nat :=
  if s.length ≥ stringArrayItemMaxLen ocDynamicAllocation then
    stringArrayItemMaxLen ocDynamicAllocation - 1
  else s.length

def textItemLength (s : CborString) : Nat :=
  if s.length + 1 > stringArrayItemMaxLen ocDynamicAllocation then
    stringArrayItemMaxLen ocDynamicAllocation
  else s.length + 1

/-- an element goes into its place in the block -/
def putElement (code : Nat) (pool : Pool) (units k : Nat) (i : CborItem) (cur : Cur)
    (write : Nat → Parser Unit) : Parser (Option Cur) := do
  match ← openArray code pool units k cur with
  | none => return none
  | some cur =>
    write cur.value.block
    return some (cur.put k i)

/-- An element of an array that is not a map; `len` is the length of the array.  `none`: the function
returns. -/
def parseScalar (len k : Nat) (i : CborItem) (cur : Cur) : Parser (Option Cur) :=
  let item := stringArrayItemMaxLen ocDynamicAllocation
  match i with
  | .integer _ e => putElement ocRepInt .int len k i cur fun block => do
    store ⟨block, 4 * k, 4⟩
    orError e
  | .double _ e => putElement ocRepDouble .double len k i cur fun block => do
    store ⟨block, 8 * k, 8⟩
    orError e
  | .boolean _ e => putElement ocRepBool .byte len k i cur fun block => do
    store ⟨block, k, 1⟩
    orError e
  | .byteString s => putElement ocRepByteString .byte (len * item) k i cur fun block => do
    orError s.lengthError
    store ⟨block, k * item, 1⟩
    store ⟨block, k * item + 1, byteItemLength ocDynamicAllocation s⟩
    orError (s.copy (byteItemLength ocDynamicAllocation s)).1
  | .textString s => putElement ocRepString .byte (len * item) k i cur fun block => do
    orError s.lengthError
    store ⟨block, k * item, textItemLength ocDynamicAllocation s⟩
    orError (s.copy (textItemLength ocDynamicAllocation s)).1
  | _ => return some cur

/-- what `oc_parse_rep_value` leaves: `*rep`, and whether `value` is at the value now or still at the
key -/
structure Parsed where
  rep : OcRep
  moved : Bool

/-- the key, in `oc_parse_rep_value`; `value` goes on behind it -/
def parseKey (key : CborItem) (advance : CborError) (value : OcString → Parser OcRep) :
    Parser Parsed := do
  if !(← allocRep) then
    setError cborErrorOutOfMemory
    return ⟨.null, false⟩
  match key with
  | .textString s =>
    orError s.lengthError
    let len := (s.length + 1) % 2^64
    if (← failed) ∨ len = 0 then return ⟨.blank, false⟩
    ocMalloc .byte len
    orError (s.copy len).1
    let name : OcString := ⟨len, (s.copy len).2⟩
    if ← failed then return ⟨.node ocRepNil name .none .null .null, false⟩
    orError advance
    return ⟨← value name, true⟩
  | _ =>
    setError cborErrorIllegalType
    return ⟨.blank, false⟩

/-- a text or byte string as a value; `none`: the function returns before anything is allocated -/
def parseString (s : CborString) : Parser (Option RepValue) := do
  orError s.lengthError
  let len := (s.length + 1) % 2^64
  if (← failed) ∨ len = 0 then return none
  ocMalloc .byte len
  orError (s.copy len).1
  return some (.string len (s.copy len).2)

/-- the loop that counts the elements of an array of indefinite length; `none`: the function returns -/
def countElements : CborValue → Nat → Parser (Option Nat)
  | .atEnd, len => return some len
  | .item _ _ _ advance next, len => do
    if ← failed then return none
    setError advance
    countElements next (len + 1)

/-- the number of elements that `cbor_value_get_array_length` says, or that are counted -/
def arrayLength (length : Option Nat) (content : CborValue) : Parser (Option Nat) :=
  if length.getD 0 = 0 then countElements content 0 else return length

/-- the loops that call `oc_parse_rep_value` for one member after the other: in `oc_parse_rep`, for a map
that is the value of a property, and for an object of an array -/
inductive Site where
  | root
  | property
  | object
deriving DecidableEq

/-- a loop over the members of a map that is a value is about to be left, if there is an error -/
def markCut : Parser Unit := modify fun r => { r with cut := r.cut || r.err != 0 }

/-- `obj = &(*obj)->next`, with the test of the error behind it; the members of a map that is a value
write through `*obj` first.  `true`: the loop is left -/
def leaveMembers (site : Site) (rep : OcRep) : Parser Bool :=
  match site, rep with
  | .property, .null => do
    markCut
    throw .nullWrite
  | .property, .node .. => do
    markCut
    failed
  | _, _ => failed

/-- the objects of an array, as a linked list -/
def linkObjects (objects : List OcRep) : OcRep :=
  objects.foldr (fun members next => .node ocRepObject .none .none members next) .null

mutual

/-- the value, in `oc_parse_rep_value`: the `switch` -/
def parseValue (name : OcString) : CborValue → Parser OcRep
  | .atEnd => do
    orError cborErrorIllegalType
    return .node ocRepNil name .none .null .null
  | .item i enter content _ _ => do
    match i with
    | .integer v e =>
      orError e
      return .node ocRepInt name (.integer v) .null .null
    | .boolean v e =>
      orError e
      return .node ocRepBool name (.boolean v) .null .null
    | .double v e =>
      orError e
      return .node ocRepDouble name (.double v) .null .null
    | .byteString s =>
      match ← parseString s with
      | none => return .node ocRepNil name .none .null .null
      | some v => return .node ocRepByteString name v .null .null
    | .textString s =>
      match ← parseString s with
      | none => return .node ocRepNil name .none .null .null
      | some v => return .node ocRepString name v .null .null
    | .map =>
      orError enter
      let (object, left) ← parseMembers .property content
      -- the type is set when the loop is done
      return .node (if left then ocRepNil else ocRepObject) name .none object .null
    | .array length =>
      orError enter
      match ← arrayLength length content with
      | none => return .node ocRepNil name .none .null .null
      | some len =>
        let cur ← parseElements len content 0 ⟨ocRepNil, .none, []⟩
        return .node cur.type name cur.value (linkObjects cur.objects) .null
    | .invalid =>
      orError cborErrorIllegalType
      return .node ocRepNil name .none .null .null
    | _ => return .node ocRepNil name .none .null .null

/-- the members of a map, and whether the loop has been left by `return` -/
def parseMembers (site : Site) : CborValue → Parser (OcRep × Bool)
  | .atEnd => return (.null, false)
  | .item key _ _ advance rest => do
    -- `cbor_value_is_valid` in `oc_parse_rep`
    if site = .root ∧ key matches .invalid then return (.null, false)
    let p ← parseKey key advance fun name => parseValue name rest
    if ← leaveMembers site p.rep then return (p.rep, true)
    if p.moved then
      match rest with
      | .atEnd => return (p.rep, false)
      | .item _ _ _ advance next =>
        orError advance
        let (reps, left) ← parseMembers site next
        return (p.rep.link reps, left)
    else
      orError advance
      let (reps, left) ← parseMembers site rest
      return (p.rep.link reps, left)

/-- the elements of an array from index `k` on -/
def parseElements (len : Nat) : CborValue → Nat → Cur → Parser Cur
  | .atEnd, _, cur => return cur
  | .item i enter content advance next, k, cur => do
    match i with
    | .map =>
      let cur := if k = 0 then { cur with type := ocRepObject ||| ocRepArray } else cur
      if cur.type &&& ocRepObject ≠ ocRepObject then
        orError cborErrorIllegalType
        return cur
      if !(← allocRep) then
        setError cborErrorOutOfMemory
        return cur
      orError enter
      let (members, left) ← parseMembers .object content
      let cur := { cur with objects := cur.objects ++ [members] }
      if left then return cur
      if ← failed then return cur
      orError advance
      parseElements len next (k + 1) cur
    | _ =>
      match ← parseScalar ocDynamicAllocation len k i cur with
      | none => return cur
      | some cur =>
        if ← failed then return cur
        orError advance
        parseElements len next (k + 1) cur

end

/-- `oc_parse_rep_value`, for a `value` that is not at its end -/
def ocParseRepValue (key : CborItem) (advance : CborError) (rest : CborValue) : Parser Parsed :=
  parseKey key advance fun name => parseValue ocDynamicAllocation name rest

/-- `cbor_value_enter_container`, where nobody has looked at the type -/
def enterContainer (i : CborItem) (enter : CborError) : Parser Unit :=
  if i.isContainer then orError enter else throw .notContainer

/-- the objects of a payload that is an array -/
def parseObjects : CborValue → Parser OcRep
  | .atEnd => return .null
  | .item i enter content advance next => do
    if i matches .invalid then return .null
    if !(← allocRep) then
      setError cborErrorOutOfMemory
      return .null
    enterContainer i enter
    let (members, left) ← parseMembers ocDynamicAllocation .root content
    let object := .node ocRepObject .none .none members .null
    if left then return object
    if ← failed then return object
    orError advance
    let objects ← parseObjects next
    return object.link objects

/-- `oc_parse_rep`: `init` is what `cbor_parser_init` returns.  It returns the error of the state. -/
def ocParseRep (init : CborError) (root : CborValue) : Parser OcRep := do
  orError init
  match root with
  | .item .map enter content _ _ =>
    orError enter
    let (reps, _) ← parseMembers ocDynamicAllocation .root content
    return reps
  | .item (.array _) enter content _ _ =>
    orError enter
    parseObjects ocDynamicAllocation content
  | _ => return .null

end

/-! ## freeing -/

/-- `oc_free`: a handle goes back to its pool -/
def Pools.give (p : Pool) (n : Nat) (s : Pools) : Pools :=
  { s with
    units := fun q => if q = p then s.units q - n else s.units q
    handles := fun q => if q = p then s.handles q - 1 else s.handles q }

/-- the size that `value.string` or `value.array` has -/
def RepValue.size : RepValue → Nat
  | .string size _ => size
  | .array _ size _ => size
  | _ => 0

/-- `oc_free_rep` -/
def ocFreeRep : OcRep → Pools → Pools
  | .null, s => s
  | .node type name value object next, s =>
    let s := ocFreeRep next s
    let s :=
      if type = ocRepByteString ||| ocRepArray ∨ type = ocRepString ||| ocRepArray then
        s.give .byte value.size
      else if type = ocRepBool ||| ocRepArray then s.give .byte value.size
      else if type = ocRepDouble ||| ocRepArray then s.give .double value.size
      else if type = ocRepInt ||| ocRepArray then s.give .int value.size
      else if type = ocRepByteString ∨ type = ocRepString then s.give .byte value.size
      else if type = ocRepObject ∨ type = ocRepObject ||| ocRepArray then ocFreeRep object s
      else s
    let s := if name.size > 0 then s.give .byte name.size else s
    { s with reps := s.reps - 1 }

/-! ## rules -/

open Triple

section
variable {α : Type} {r : Run} {Q : α → Run → Prop} {E : Fault → Run → Prop}

theorem sat_orError {f : Unit → Parser α} {e : CborError}
    (h : Sat (f ()) { r with err := r.err ||| e } Q E) : Sat (orError e >>= f) r Q E := h

theorem sat_setError {f : Unit → Parser α} {e : CborError}
    (h : Sat (f ()) { r with err := e } Q E) : Sat (setError e >>= f) r Q E := h

theorem sat_failed {f : Bool → Parser α} (h : Sat (f (r.err != 0)) r Q E) :
    Sat (failed >>= f) r Q E := h

theorem sat_store {f : Unit → Parser α} {x : Store}
    (h : Sat (f ()) { r with stores := r.stores ++ [x] } Q E) : Sat (store x >>= f) r Q E := h

theorem allocRep_eq (r : Run) : allocRep r =
    if r.pools.repCapacity.any (· ≤ r.pools.reps) then .ok false r
    else .ok true { r with pools := { r.pools with reps := r.pools.reps + 1 } } := by
  show (if _ then (pure false : Parser Bool) else _) r = _
  split <;> rfl

theorem ocMalloc_eq (p : Pool) (n : Nat) (r : Run) : ocMalloc p n r =
    if p.width * n % 2^32 = 0 ∨ (r.pools.capacity p).any (· < r.pools.units p + n) then
      .error .ocAssert r
    else .ok () { r with pools := r.pools.take p n } := by
  show (if _ then (throw Fault.ocAssert : Parser Unit) else _) r = _
  split <;> rfl

theorem sat_allocRep {f : Bool → Parser α} (hno : Sat (f false) r Q E)
    (hyes : Sat (f true) { r with pools := { r.pools with reps := r.pools.reps + 1 } } Q E) :
    Sat (allocRep >>= f) r Q E := by
  have halloc := allocRep_eq r
  split at halloc
  · exact Sat.bind_ok halloc hno
  · exact Sat.bind_ok halloc hyes

theorem sat_ocMalloc {f : Unit → Parser α} {p : Pool} {n : Nat} (hno : E .ocAssert r)
    (hyes : n ≠ 0 → Sat (f ()) { r with pools := r.pools.take p n } Q E) :
    Sat (ocMalloc p n >>= f) r Q E := by
  have halloc := ocMalloc_eq p n r
  split at halloc
  · exact Sat.bind_error halloc hno
  · rename_i h
    refine Sat.bind_ok halloc (hyes fun h0 => h (Or.inl ?_))
    rw [h0]
    rfl

end

end Payload
