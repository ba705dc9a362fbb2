import Iotivity.Payload.Parse

/-!
# What `oc_free_rep` gives back

`oc_parse_rep` takes nodes, and blocks of the three pools with their handles.  All of them are in what it
leaves behind; but a map that is the value of a property gets its type when all its members are there,
and without it `oc_free_rep` does not come to them.

* `Counter`                  what is counted;
* `OcRep.total`, `visible`   how much of it a representation holds, and how much `oc_free_rep` finds;
* `Grows`                    what a piece of the parser takes is in what it leaves;
* `parse_free_released_iff`.
-/

namespace Payload
open Triple

/-! ## counting -/

/-- nodes, the units of a pool, the handles of a pool -/
inductive Counter where
  | reps
  | units (p : Pool)
  | handles (p : Pool)
deriving DecidableEq

/-- how much is in use -/
def Pools.count (s : Pools) : Counter → Nat
  | .reps => s.reps
  | .units p => s.units p
  | .handles p => s.handles p

/-- what a block of `n` units of the pool `p` counts for -/
def charge (p : Pool) (n : Nat) : Counter → Nat
  | .reps => 0
  | .units q => if q = p then n else 0
  | .handles q => if q = p then 1 else 0

/-- what a node counts for, without what it holds -/
def Counter.node : Counter → Nat
  | .reps => 1
  | _ => 0

def OcString.own (s : OcString) (c : Counter) : Nat := if s.size > 0 then charge .byte s.size c else 0

/-- the pool that `value` has a block of -/
def RepValue.pool : RepValue → Option Pool
  | .string _ _ => some .byte
  | .array p _ _ => some p
  | _ => .none

def RepValue.own (v : RepValue) (c : Counter) : Nat :=
  match v.pool with
  | .none => 0
  | some p => charge p v.size c

/-- the pool that `oc_free_rep` gives `value` back to, for a type -/
def freedPool (type : Nat) : Option Pool :=
  if type = ocRepByteString ||| ocRepArray ∨ type = ocRepString ||| ocRepArray then some .byte
  else if type = ocRepBool ||| ocRepArray then some .byte
  else if type = ocRepDouble ||| ocRepArray then some .double
  else if type = ocRepInt ||| ocRepArray then some .int
  else if type = ocRepByteString ∨ type = ocRepString then some .byte
  else none

/-- the types that `oc_free_rep` follows `value.object` for -/
def followed (type : Nat) : Prop := type = ocRepObject ∨ type = ocRepObject ||| ocRepArray

instance (type : Nat) : Decidable (followed type) := inferInstanceAs (Decidable (_ ∨ _))

/-- everything that a representation holds -/
def OcRep.total (c : Counter) : OcRep → Nat
  | .null => 0
  | .node _ name value object next => c.node + name.own c + value.own c + object.total c + next.total c

/-- what `oc_free_rep` comes to -/
def OcRep.visible (c : Counter) : OcRep → Nat
  | .null => 0
  | .node type name value object next =>
    c.node + name.own c + value.own c + (if followed type then object.visible c else 0) + next.visible c

/-- there are nodes that it does not come to -/
def OcRep.hidden : OcRep → Bool
  | .null => false
  | .node type _ _ object next =>
    (if followed type then object.hidden else !(object matches .null)) || next.hidden

/-- types are those of the values -/
def OcRep.Typed : OcRep → Prop
  | .null => True
  | .node type _ value object next => freedPool type = value.pool ∧ object.Typed ∧ next.Typed

theorem total_node (c : Counter) (type : Nat) (name : OcString) (value : RepValue)
    (object next : OcRep) : (OcRep.node type name value object next).total c =
      c.node + name.own c + value.own c + object.total c + next.total c := rfl

theorem visible_node (c : Counter) (type : Nat) (name : OcString) (value : RepValue)
    (object next : OcRep) : (OcRep.node type name value object next).visible c =
      c.node + name.own c + value.own c + (if followed type then object.visible c else 0) +
        next.visible c := rfl

/-! ## freeing -/

theorem count_give (s : Pools) (p : Pool) (n : Nat) (c : Counter) :
    (s.give p n).count c = s.count c - charge p n c := by
  cases c with
  | reps => rfl
  | units q =>
    show (if q = p then s.units q - n else s.units q) = s.units q - if q = p then n else 0
    split <;> rfl
  | handles q =>
    show (if q = p then s.handles q - 1 else s.handles q) = s.handles q - if q = p then 1 else 0
    split <;> rfl

theorem count_give_value {v : RepValue} {p : Pool} (h : some p = v.pool) (s : Pools) (c : Counter) :
    (s.give p v.size).count c = s.count c - v.own c := by
  unfold RepValue.own
  rw [← h]
  exact count_give s p v.size c

theorem own_none {v : RepValue} (h : Option.none = v.pool) (c : Counter) : v.own c = 0 := by
  unfold RepValue.own
  rw [← h]

/-- what `oc_free_rep` does to the value of a node -/
def freeValue (type : Nat) (value : RepValue) (object : OcRep) (s : Pools) : Pools :=
  match freedPool type with
  | some p => s.give p value.size
  | none => if followed type then ocFreeRep object s else s

theorem ocFreeRep_node (type : Nat) (name : OcString) (value : RepValue) (object next : OcRep)
    (s : Pools) : ocFreeRep (.node type name value object next) s =
      (let x := freeValue type value object (ocFreeRep next s)
       let y := if name.size > 0 then x.give .byte name.size else x
       { y with reps := y.reps - 1 }) := by
  have hval : ∀ s, freeValue type value object s =
      if type = ocRepByteString ||| ocRepArray ∨ type = ocRepString ||| ocRepArray then
        s.give .byte value.size
      else if type = ocRepBool ||| ocRepArray then s.give .byte value.size
      else if type = ocRepDouble ||| ocRepArray then s.give .double value.size
      else if type = ocRepInt ||| ocRepArray then s.give .int value.size
      else if type = ocRepByteString ∨ type = ocRepString then s.give .byte value.size
      else if type = ocRepObject ∨ type = ocRepObject ||| ocRepArray then ocFreeRep object s
      else s := by
    intro s
    unfold freeValue freedPool followed
    by_cases h1 : type = ocRepByteString ||| ocRepArray ∨ type = ocRepString ||| ocRepArray
    · rw [if_pos h1, if_pos h1]
    rw [if_neg h1, if_neg h1]
    by_cases h2 : type = ocRepBool ||| ocRepArray
    · rw [if_pos h2, if_pos h2]
    rw [if_neg h2, if_neg h2]
    by_cases h3 : type = ocRepDouble ||| ocRepArray
    · rw [if_pos h3, if_pos h3]
    rw [if_neg h3, if_neg h3]
    by_cases h4 : type = ocRepInt ||| ocRepArray
    · rw [if_pos h4, if_pos h4]
    rw [if_neg h4, if_neg h4]
    by_cases h5 : type = ocRepByteString ∨ type = ocRepString
    · rw [if_pos h5, if_pos h5]
    rw [if_neg h5, if_neg h5]
    rfl
  rw [ocFreeRep, hval]

/-- `oc_free_rep` gives back what it comes to -/
theorem count_ocFreeRep (c : Counter) (rep : OcRep) (h : rep.Typed) : ∀ s : Pools,
    (ocFreeRep rep s).count c = s.count c - rep.visible c := by
  induction rep with
  | null => exact fun _ => rfl
  | node type name value object next ihobject ihnext =>
    obtain ⟨htype, hobject, hnext⟩ := h
    intro s
    rw [ocFreeRep_node]
    have hval : (freeValue type value object (ocFreeRep next s)).count c =
        s.count c - next.visible c - value.own c -
          (if followed type then object.visible c else 0) := by
      unfold freeValue
      cases hp : freedPool type with
      | none =>
        rw [hp] at htype
        rw [own_none htype]
        show (if followed type then _ else _ : Pools).count c = _
        split
        · rw [ihobject hobject, ihnext hnext]; rfl
        · rw [ihnext hnext]; rfl
      | some p =>
        rw [hp] at htype
        have hf : ¬ followed type := by
          rintro (h | h) <;> rw [h] at hp <;> cases hp
        show ((ocFreeRep next s).give p value.size).count c = _
        rw [count_give_value htype, ihnext hnext, if_neg hf]
        rfl
    have hname : ∀ x : Pools, (if name.size > 0 then x.give .byte name.size else x).count c =
        x.count c - name.own c := by
      intro x
      unfold OcString.own
      split
      · exact count_give x .byte name.size c
      · rfl
    have hnode : ∀ y : Pools, ({ y with reps := y.reps - 1 } : Pools).count c = y.count c - c.node := by
      intro y
      cases c <;> rfl
    show (_ : Pools).count c = _
    rw [hnode, hname, hval, visible_node]
    omega

/-- nothing is hidden: `oc_free_rep` comes to everything -/
theorem visible_of_shown (c : Counter) (rep : OcRep) (h : rep.hidden = false) :
    rep.visible c = rep.total c := by
  induction rep with
  | null => rfl
  | node type name value object next ihobject ihnext =>
    unfold OcRep.hidden at h
    obtain ⟨ho, hn⟩ := Bool.or_eq_false_iff.mp h
    rw [visible_node, total_node, ihnext hn]
    split
    · rename_i hf
      rw [if_pos hf] at ho
      rw [ihobject ho]
    · rename_i hf
      rw [if_neg hf] at ho
      cases object with
      | null => rfl
      | node => cases ho

theorem visible_le (c : Counter) (rep : OcRep) : rep.visible c ≤ rep.total c := by
  induction rep with
  | null => exact Nat.le_refl _
  | node type name value object next ihobject ihnext =>
    rw [visible_node, total_node]
    split <;> omega

/-- a node is lost -/
theorem visible_lt_of_hidden (rep : OcRep) (h : rep.hidden = true) :
    rep.visible .reps < rep.total .reps := by
  induction rep with
  | null => cases h
  | node type name value object next ihobject ihnext =>
    unfold OcRep.hidden at h
    have h1 := visible_le .reps object
    have h2 := visible_le .reps next
    rw [visible_node, total_node]
    rcases Bool.or_eq_true_iff.mp h with ho | hn
    · split
      · rename_i hf
        rw [if_pos hf] at ho
        have := ihobject ho
        omega
      · rename_i hf
        rw [if_neg hf] at ho
        cases object with
        | null => cases ho
        | node =>
          have : Counter.node .reps = 1 := rfl
          rw [total_node .reps _ _ _ _ _] at h1 ⊢
          omega
    · have := ihnext hn
      split <;> omega

/-! ## what the pieces take -/

/-- a write through `NULL` comes behind a loop that was left at an error -/
def Stops (f : Fault) (r : Run) : Prop := f = .nullWrite → r.cut = true

/-- `f` has been taken, and nodes get lost or not -/
structure Grows (r r' : Run) (f : Counter → Nat) (hidden : Bool) : Prop where
  counts : ∀ c, r'.pools.count c = r.pools.count c + f c
  cut : r'.cut = (r.cut || hidden)

variable {r r' : Run}

theorem Grows.same (hp : r'.pools = r.pools) (hc : r'.cut = r.cut) : Grows r r' (fun _ => 0) false :=
  ⟨fun _ => by rw [hp]; rfl, by rw [hc, Bool.or_false]⟩

theorem Grows.trans {r₁ r₂ r₃ : Run} {f g : Counter → Nat} {b b' : Bool} (h : Grows r₁ r₂ f b)
    (h' : Grows r₂ r₃ g b') : Grows r₁ r₃ (fun c => f c + g c) (b || b') :=
  ⟨fun c => by rw [h'.counts, h.counts, Nat.add_assoc], by rw [h'.cut, h.cut, Bool.or_assoc]⟩

theorem count_take (s : Pools) (p : Pool) (n : Nat) (c : Counter) :
    (s.take p n).count c = s.count c + charge p n c := by
  cases c with
  | reps => rfl
  | units q =>
    show (if q = p then s.units q + n else s.units q) = s.units q + if q = p then n else 0
    split <;> rfl
  | handles q =>
    show (if q = p then s.handles q + 1 else s.handles q) = s.handles q + if q = p then 1 else 0
    split <;> rfl

/-! ## steps that take nothing but a node or a block -/

theorem Grows.node (r : Run) :
    Grows r { r with pools := { r.pools with reps := r.pools.reps + 1 } } Counter.node false := by
  refine ⟨fun c => ?_, (Bool.or_false _).symm⟩
  cases c <;> rfl

theorem Grows.take (r : Run) (p : Pool) (n : Nat) :
    Grows r { r with pools := r.pools.take p n } (charge p n) false :=
  ⟨count_take r.pools p n, (Bool.or_false _).symm⟩

/-- the error and the stores do not count -/
theorem Grows.congr {f : Counter → Nat} {b : Bool} (h : Grows r r' f b) {s : Run}
    (hp : s.pools = r'.pools) (hc : s.cut = r'.cut) : Grows r s f b :=
  ⟨fun c => by rw [hp]; exact h.counts c, by rw [hc]; exact h.cut⟩

theorem parseString_grows (s : CborString) (r : Run) : Sat (parseString s) r (fun v r' =>
    match v with
    | none => Grows r r' (fun _ => 0) false
    | some v => v.pool = some .byte ∧ Grows r r' v.own false) Stops := by
  unfold parseString
  refine sat_orError (sat_failed (Sat.ite (fun _ => ?_) fun _ => ?_))
  · exact Sat.pure (Grows.same rfl rfl)
  · refine sat_ocMalloc (fun h => Fault.noConfusion h) fun _ => sat_orError (Sat.pure ?_)
    exact ⟨rfl, (Grows.take r .byte _).congr rfl rfl⟩

theorem countElements_grows (v : CborValue) : ∀ (len : Nat) (r : Run),
    Sat (countElements v len) r (fun _ r' => Grows r r' (fun _ => 0) false) Stops := by
  induction v with
  | atEnd => exact fun len r => Sat.pure (Grows.same rfl rfl)
  | item i enter content advance next _ ih =>
    intro len r
    unfold countElements
    refine sat_failed (Sat.ite (fun _ => Sat.pure (Grows.same rfl rfl)) fun _ => sat_setError ?_)
    exact (ih (len + 1) _).imp (fun _ _ h => ⟨h.counts, h.cut⟩) fun _ _ h => h

theorem arrayLength_grows (length : Option Nat) (v : CborValue) (r : Run) :
    Sat (arrayLength length v) r (fun _ r' => Grows r r' (fun _ => 0) false) Stops := by
  unfold arrayLength
  exact Sat.ite (fun _ => countElements_grows v 0 r) fun _ => Sat.pure (Grows.same rfl rfl)

/-! ## arrays -/

/-- the types that an array under construction can have -/
def arrayTypes : List Nat := [0x00, 0x09, 0x0A, 0x0B, 0x0C, 0x0D, 0x0E]

theorem followed_of_object : ∀ type ∈ arrayTypes, type &&& ocRepObject = ocRepObject →
    followed type := by
  decide

/-- what an array under construction holds, its objects apart -/
structure Cur.Sound (cur : Cur) : Prop where
  type : cur.type ∈ arrayTypes
  pool : freedPool cur.type = cur.value.pool
  objects : ∀ rep ∈ cur.objects, rep.Typed
  followed : cur.objects ≠ [] → followed cur.type

/-- nothing has been parsed yet at index 0 -/
def Cur.Fresh (k : Nat) (cur : Cur) : Prop := k = 0 → cur = ⟨ocRepNil, .none, []⟩

theorem put_own (v : RepValue) (k : Nat) (i : CborItem) : (v.put k i).own = v.own := by
  cases v <;> rfl

theorem put_pool (v : RepValue) (k : Nat) (i : CborItem) : (v.put k i).pool = v.pool := by
  cases v <;> rfl

/-- what a step in an array leaves: what is taken is in the block of the array -/
def Kept (cur : Cur) (r : Run) (x : Option Cur) (r' : Run) : Prop :=
  match x with
  | none => Grows r r' (fun _ => 0) false
  | some cur' => cur'.Sound ∧ cur'.objects = cur.objects ∧
      ∃ f, Grows r r' f false ∧ ∀ c, cur'.value.own c = cur.value.own c + f c

theorem openArray_grows {code : Nat} {pool : Pool}
    (hcode : freedPool (code ||| ocRepArray) = some pool) (htype : code ||| ocRepArray ∈ arrayTypes)
    (units : Nat) {k : Nat} {cur : Cur} (hs : cur.Sound) (hk : cur.Fresh k) (r : Run) :
    Sat (openArray code pool units k cur) r (Kept cur r) Stops := by
  unfold openArray
  refine Sat.ite (fun h0 => ?_) fun h0 => Sat.ite (fun _ => ?_) fun _ => ?_
  · rw [hk h0]
    refine sat_ocMalloc (fun h => Fault.noConfusion h) fun _ => Sat.pure ?_
    refine ⟨⟨htype, hcode, fun _ h => absurd h List.not_mem_nil, fun h => absurd rfl h⟩, rfl, _,
      Grows.take r pool units, fun c => ?_⟩
    exact (Nat.zero_add _).symm
  · exact sat_orError (Sat.pure (Grows.same rfl rfl))
  · exact Sat.pure ⟨hs, rfl, _, Grows.same rfl rfl, fun _ => rfl⟩

theorem putElement_grows {code : Nat} {pool : Pool}
    (hcode : freedPool (code ||| ocRepArray) = some pool) (htype : code ||| ocRepArray ∈ arrayTypes)
    (units : Nat) {k : Nat} (i : CborItem)
    {cur : Cur} (hs : cur.Sound) (hk : cur.Fresh k) {write : Nat → Parser Unit}
    (hw : ∀ b r, Sat (write b) r (fun _ r' => r'.pools = r.pools ∧ r'.cut = r.cut) Stops) (r : Run) :
    Sat (putElement code pool units k i cur write) r (Kept cur r) Stops := by
  unfold putElement
  refine Sat.bind (openArray_grows hcode htype units hs hk r) fun x r' h => ?_
  cases x with
  | none => exact Sat.pure h
  | some cur' =>
    obtain ⟨⟨ht, hpool, hobj, hfol⟩, he, f, hg, hf⟩ := h
    refine Sat.bind (hw _ r') fun _ r'' hr => Sat.pure ?_
    refine ⟨⟨ht, ?_, hobj, hfol⟩, he, f, hg.congr hr.1 hr.2, fun c => ?_⟩
    · show freedPool cur'.type = (cur'.value.put k i).pool
      rw [put_pool]
      exact hpool
    · show (cur'.value.put k i).own c = _
      rw [put_own]
      exact hf c

theorem parseScalar_grows (d : Bool) (len : Nat) {k : Nat} (i : CborItem) {cur : Cur}
    (hs : cur.Sound) (hk : cur.Fresh k) (r : Run) :
    Sat (parseScalar d len k i cur) r (Kept cur r) Stops := by
  unfold parseScalar
  cases i with
  | integer v e =>
    refine putElement_grows rfl (by decide) _ _ hs hk (fun _ _ => ?_) r
    exact ⟨rfl, rfl⟩
  | double v e =>
    refine putElement_grows rfl (by decide) _ _ hs hk (fun _ _ => ?_) r
    exact ⟨rfl, rfl⟩
  | boolean v e =>
    refine putElement_grows rfl (by decide) _ _ hs hk (fun _ _ => ?_) r
    exact ⟨rfl, rfl⟩
  | byteString s =>
    refine putElement_grows rfl (by decide) _ _ hs hk (fun _ _ => ?_) r
    exact ⟨rfl, rfl⟩
  | textString s =>
    refine putElement_grows rfl (by decide) _ _ hs hk (fun _ _ => ?_) r
    exact ⟨rfl, rfl⟩
  | _ => exact Sat.pure ⟨hs, rfl, _, Grows.same rfl rfl, fun _ => rfl⟩

/-! ## lists -/

theorem total_linkObjects_append (objects : List OcRep) (members : OcRep) (c : Counter) :
    (linkObjects (objects ++ [members])).total c =
      (linkObjects objects).total c + (c.node + members.total c) := by
  induction objects with
  | nil =>
    show c.node + 0 + 0 + members.total c + 0 = 0 + _
    have hname : OcString.none.own c = 0 := rfl
    omega
  | cons rep objects ih =>
    show c.node + 0 + 0 + rep.total c + (linkObjects (objects ++ [members])).total c =
      c.node + 0 + 0 + rep.total c + (linkObjects objects).total c + _
    rw [ih]
    omega

theorem hidden_linkObjects_append (objects : List OcRep) (members : OcRep) :
    (linkObjects (objects ++ [members])).hidden = ((linkObjects objects).hidden || members.hidden) := by
  induction objects with
  | nil => exact Bool.or_false _
  | cons rep objects ih =>
    show (rep.hidden || (linkObjects (objects ++ [members])).hidden) =
      (rep.hidden || (linkObjects objects).hidden || members.hidden)
    rw [ih, Bool.or_assoc]

theorem typed_linkObjects {objects : List OcRep} (h : ∀ rep ∈ objects, rep.Typed) :
    (linkObjects objects).Typed := by
  induction objects with
  | nil => trivial
  | cons rep objects ih =>
    exact ⟨rfl, h rep List.mem_cons_self, ih fun x hx => h x (List.mem_cons_of_mem _ hx)⟩

/-- a node that has no successor yet -/
def OcRep.Single : OcRep → Prop
  | .null => False
  | .node _ _ _ _ next => next = .null

theorem OcRep.Single.total_link {rep : OcRep} (h : rep.Single) (next : OcRep) (c : Counter) :
    (rep.link next).total c = rep.total c + next.total c := by
  cases rep with
  | null => exact h.elim
  | node type name value object n =>
    obtain rfl : n = .null := h
    rfl

theorem OcRep.Single.hidden_link {rep : OcRep} (h : rep.Single) (next : OcRep) :
    (rep.link next).hidden = (rep.hidden || next.hidden) := by
  cases rep with
  | null => exact h.elim
  | node type name value object n =>
    obtain rfl : n = .null := h
    show (_ || next.hidden) = ((_ || false) || next.hidden)
    rw [Bool.or_false]

theorem OcRep.Single.typed_link {rep next : OcRep} (h : rep.Single) (ht : rep.Typed) (hn : next.Typed) :
    (rep.link next).Typed := by
  cases rep with
  | null => exact h.elim
  | node type name value object n => exact ⟨ht.1, ht.2.1, hn⟩

theorem OcRep.Single.link_null {rep : OcRep} (h : rep.Single) : rep.link .null = rep := by
  cases rep with
  | null => exact h.elim
  | node type name value object n =>
    obtain rfl : n = .null := h
    rfl

/-! ## properties -/

/-- what is left in `rep`, from a state `r` on -/
structure Left (r : Run) (rep : OcRep) (r' : Run) : Prop where
  typed : rep.Typed
  grows : Grows r r' (fun c => rep.total c) rep.hidden

/-- what the value of a property leaves: the node and its name have been taken before -/
structure Valued (name : OcString) (r : Run) (rep : OcRep) (r' : Run) : Prop where
  typed : rep.Typed
  single : rep.Single
  grows : ∃ f, Grows r r' f rep.hidden ∧ ∀ c, rep.total c = c.node + name.own c + f c

/-- what a property leaves; there is no node only if there is an error -/
structure Propertied (r : Run) (p : Parsed) (r' : Run) : Prop where
  left : Left r p.rep r'
  single : p.rep.Single ∨ p.rep = .null ∧ r'.err ≠ 0

theorem Valued.of_none {name : OcString} {type : Nat} (ht : freedPool type = none)
    (h : Grows r r' (fun _ => 0) false) :
    Valued name r (.node type name .none .null .null) r' := by
  refine ⟨⟨ht, trivial, trivial⟩, rfl, fun _ => 0, ?_, fun c => rfl⟩
  have hh : (OcRep.node type name .none .null .null).hidden = false := by
    unfold OcRep.hidden
    split <;> rfl
  rw [hh]
  exact h

theorem Valued.propertied {name : OcString} {rep : OcRep} {r₀ : Run} (h : Valued name r rep r')
    (h₀ : Grows r₀ r (fun c => c.node + name.own c) false) : Propertied r₀ ⟨rep, true⟩ r' := by
  obtain ⟨htyped, hsingle, f, hg, hf⟩ := h
  have hall := h₀.trans hg
  rw [Bool.false_or] at hall
  exact ⟨⟨htyped, fun c => by rw [hall.counts, hf], hall.cut⟩, Or.inl hsingle⟩

theorem parseKey_left (key : CborItem) (advance : CborError) {value : OcString → Parser OcRep}
    (hv : ∀ name r, Sat (value name) r (Valued name r) Stops) (r : Run) :
    Sat (parseKey key advance value) r (Propertied r) Stops := by
  have hblank : ∀ r', r'.pools = { r.pools with reps := r.pools.reps + 1 } → r'.cut = r.cut →
      Propertied r ⟨.blank, false⟩ r' := fun r' hp hc =>
    ⟨⟨⟨rfl, trivial, trivial⟩, (Grows.node r).congr hp hc⟩, Or.inl rfl⟩
  unfold parseKey
  refine sat_allocRep ?_ ?_
  · refine Sat.ite (fun _ => sat_setError (Sat.pure ?_)) fun h => absurd rfl h
    exact ⟨⟨trivial, Grows.same rfl rfl⟩, Or.inr ⟨rfl, show cborErrorOutOfMemory ≠ 0 by decide⟩⟩
  · refine Sat.ite (fun h => Bool.noConfusion h) fun _ => ?_
    cases key with
    | textString s =>
      refine sat_orError (sat_failed (Sat.ite (fun _ => Sat.pure (hblank _ rfl rfl)) fun hlen => ?_))
      refine sat_ocMalloc (fun h => Fault.noConfusion h) fun hpos => sat_orError (sat_failed ?_)
      -- the node and its name
      have hname : ∀ r', r'.pools = { r.pools with reps := r.pools.reps + 1 }.take .byte
            ((s.length + 1) % 2^64) → r'.cut = r.cut → Grows r r' (fun c => c.node +
              OcString.own ⟨(s.length + 1) % 2^64, (s.copy ((s.length + 1) % 2^64)).2⟩ c) false := by
        intro r' hp hc
        refine ⟨fun c => ?_, by rw [hc, Bool.or_false]⟩
        have hown : OcString.own ⟨(s.length + 1) % 2^64, (s.copy ((s.length + 1) % 2^64)).2⟩ c =
            charge .byte ((s.length + 1) % 2^64) c := if_pos (Nat.pos_of_ne_zero hpos)
        rw [hp, count_take, hown, ← Nat.add_assoc]
        exact congrArg (· + _) ((Grows.node r).counts c)
      refine Sat.ite (fun _ => Sat.pure ?_) fun _ => sat_orError ?_
      · exact ⟨⟨⟨rfl, trivial, trivial⟩, hname _ rfl rfl⟩, Or.inl rfl⟩
      · refine Sat.bind (hv _ _) fun rep r' h => Sat.pure ?_
        exact h.propertied (hname _ rfl rfl)
    | _ => exact sat_setError (Sat.pure (hblank _ rfl rfl))

/-- behind a property: the loop over the members of a map that is a value is left with the flag set -/
theorem leaveMembers_left (site : Site) {rep : OcRep} (h : rep.Single ∨ rep = .null ∧ r.err ≠ 0) :
    Sat (leaveMembers site rep) r (fun left r' => left = (r.err != 0) ∧ r'.err = r.err ∧
      r'.pools = r.pools ∧ (left = false → rep.Single) ∧
      if site = .property then r'.cut = (r.cut || left) ∧ rep.Single else r'.cut = r.cut) Stops := by
  have hleft : (r.err != 0) = false → rep.Single := fun hb =>
    h.resolve_right fun hn => hn.2 (by simpa using hb)
  cases site with
  | property =>
    cases rep with
    | null =>
      obtain h | ⟨-, herr⟩ := h
      · exact h.elim
      · intro _
        show (r.cut || r.err != 0) = true
        simp [herr]
    | node type name value object next => exact ⟨rfl, rfl, rfl, hleft, rfl, h.resolve_right (by simp)⟩
  | root => exact ⟨rfl, rfl, rfl, hleft, rfl⟩
  | object => exact ⟨rfl, rfl, rfl, hleft, rfl⟩

/-! ## the parser -/

/-- What the members of a map leave.  Those of a map that is a value are given up if there is an error:
the flag is set, and there is a node. -/
structure MembersLeft (site : Site) (r : Run) (x : OcRep × Bool) (r' : Run) : Prop where
  typed : x.1.Typed
  counts : ∀ c, r'.pools.count c = r.pools.count c + x.1.total c
  cut : if site = .property ∧ x.2 = true then r'.cut = true ∧ x.1 ≠ .null
    else r'.cut = (r.cut || x.1.hidden)

/-- what the elements of an array leave: what has been taken is in the block or in the objects -/
structure ElementsLeft (cur : Cur) (r : Run) (cur' : Cur) (r' : Run) : Prop where
  sound : cur'.Sound
  grows : ∃ f b, Grows r r' f b ∧
    (∀ c, cur'.value.own c + (linkObjects cur'.objects).total c =
      cur.value.own c + (linkObjects cur.objects).total c + f c) ∧
    (linkObjects cur'.objects).hidden = ((linkObjects cur.objects).hidden || b)

/-- what the three loops do from an iterator on -/
structure Parses (d : Bool) (v : CborValue) : Prop where
  value : ∀ name r, Sat (parseValue d name v) r (Valued name r) Stops
  members : ∀ site r, Sat (parseMembers d site v) r (MembersLeft site r) Stops
  elements : ∀ len k cur r, cur.Sound → cur.Fresh k →
    Sat (parseElements d len v k cur) r (ElementsLeft cur r) Stops

variable {d : Bool} {i : CborItem} {enter advance : CborError} {content next : CborValue}

theorem Valued.of_scalar {name : OcString} {type : Nat} {value : RepValue}
    (ht : freedPool type = value.pool) (h : Grows r r' value.own false) :
    Valued name r (.node type name value .null .null) r' := by
  refine ⟨⟨ht, trivial, trivial⟩, rfl, value.own, ?_, fun c => rfl⟩
  have hh : (OcRep.node type name value .null .null).hidden = false := by
    unfold OcRep.hidden
    split <;> rfl
  rw [hh]
  exact h

theorem Valued.of_map {name : OcString} {x : OcRep × Bool} {r₀ : Run}
    (h : MembersLeft .property r x r') (h₀ : r.pools = r₀.pools) (hc : r.cut = r₀.cut) :
    Valued name r₀ (.node (if x.2 then ocRepNil else ocRepObject) name .none x.1 .null) r' := by
  obtain ⟨htyped, hcounts, hcut⟩ := h
  rw [h₀] at hcounts
  rw [hc] at hcut
  cases hx : x.2 with
  | true =>
    -- the nodes are there, and nothing leads to them
    rw [hx, if_pos ⟨rfl, rfl⟩] at hcut
    have hh : (OcRep.node ocRepNil name .none x.1 .null).hidden = true := by
      cases hrep : x.1 with
      | null => exact absurd hrep hcut.2
      | node => rfl
    refine ⟨⟨rfl, htyped, trivial⟩, rfl, _, ⟨hcounts, ?_⟩, fun c => rfl⟩
    show r'.cut = (r₀.cut || (OcRep.node ocRepNil name .none x.1 .null).hidden)
    rw [hh, hcut.1, Bool.or_true]
  | false =>
    rw [hx, if_neg fun h => Bool.noConfusion h.2] at hcut
    refine ⟨⟨rfl, htyped, trivial⟩, rfl, _, ⟨hcounts, ?_⟩, fun c => rfl⟩
    show r'.cut = (r₀.cut || (x.1.hidden || false))
    rw [hcut, Bool.or_false]

theorem Valued.of_array {name : OcString} {cur : Cur} {r₀ : Run} (h₀ : Grows r₀ r (fun _ => 0) false)
    (h : ElementsLeft ⟨ocRepNil, .none, []⟩ r cur r') :
    Valued name r₀ (.node cur.type name cur.value (linkObjects cur.objects) .null) r' := by
  obtain ⟨⟨-, hpool, hobj, hfol⟩, f, b, hg, htotal, hhidden⟩ := h
  have hh : (OcRep.node cur.type name cur.value (linkObjects cur.objects) .null).hidden = b := by
    have hlink : (linkObjects cur.objects).hidden = b := hhidden
    unfold OcRep.hidden
    split
    · rw [hlink]
      exact Bool.or_false b
    · rename_i hno
      have hnil : cur.objects = [] := Classical.byContradiction fun hne => hno (hfol hne)
      rw [hnil] at hlink ⊢
      exact hlink
  refine ⟨⟨hpool, typed_linkObjects hobj, trivial⟩, rfl, f, ?_, fun c => ?_⟩
  · have hall := h₀.trans hg
    rw [hh]
    exact ⟨fun c => by rw [hall.counts, Nat.zero_add], hall.cut⟩
  · have hown : cur.value.own c + (linkObjects cur.objects).total c = 0 + 0 + f c := htotal c
    have hnull : OcRep.null.total c = 0 := rfl
    rw [total_node, hnull]
    omega

theorem parseValue_valued (hc : Parses d content) (name : OcString) (r : Run) :
    Sat (parseValue d name (.item i enter content advance next)) r (Valued name r) Stops := by
  unfold parseValue
  cases i with
  | integer v e => exact sat_orError (Sat.pure (Valued.of_scalar rfl (Grows.same rfl rfl)))
  | boolean v e => exact sat_orError (Sat.pure (Valued.of_scalar rfl (Grows.same rfl rfl)))
  | double v e => exact sat_orError (Sat.pure (Valued.of_scalar rfl (Grows.same rfl rfl)))
  | byteString s =>
    refine Sat.bind (parseString_grows s r) fun v r' h => ?_
    cases v with
    | none => exact Sat.pure (Valued.of_none rfl h)
    | some v => exact Sat.pure (Valued.of_scalar h.1.symm h.2)
  | textString s =>
    refine Sat.bind (parseString_grows s r) fun v r' h => ?_
    cases v with
    | none => exact Sat.pure (Valued.of_none rfl h)
    | some v => exact Sat.pure (Valued.of_scalar h.1.symm h.2)
  | map =>
    refine sat_orError (Sat.bind (hc.members .property _) fun x r' h => Sat.pure ?_)
    exact Valued.of_map h rfl rfl
  | array length =>
    refine sat_orError (Sat.bind (arrayLength_grows length content _) fun len r₁ h₁ => ?_)
    cases len with
    | none => exact Sat.pure (Valued.of_none rfl ⟨h₁.counts, h₁.cut⟩)
    | some len =>
      refine Sat.bind (hc.elements len 0 ⟨ocRepNil, .none, []⟩ r₁ ?_ fun _ => rfl) fun cur r' h =>
        Sat.pure ?_
      · exact ⟨by decide, rfl, fun _ h => absurd h List.not_mem_nil, fun h => absurd rfl h⟩
      · exact Valued.of_array ⟨h₁.counts, h₁.cut⟩ h
  | invalid => exact sat_orError (Sat.pure (Valued.of_none rfl (Grows.same rfl rfl)))
  | tag => exact Sat.pure (Valued.of_none rfl (Grows.same rfl rfl))
  | other => exact Sat.pure (Valued.of_none rfl (Grows.same rfl rfl))

theorem MembersLeft.nil (site : Site) (r : Run) : MembersLeft site r (.null, false) r := by
  refine ⟨trivial, fun _ => rfl, ?_⟩
  rw [if_neg fun h => Bool.noConfusion h.2]
  exact (Bool.or_false _).symm

/-- a property and the members behind it -/
theorem MembersLeft.cons {site : Site} {r₀ r₁ : Run} {p : Parsed} {x : OcRep × Bool}
    (hx : MembersLeft site r x r') (hp : Left r₀ p.rep r₁) (hs : p.rep.Single)
    (hpools : r.pools = r₁.pools) (hcut : r.cut = r₁.cut) :
    MembersLeft site r₀ (p.rep.link x.1, x.2) r' := by
  refine ⟨hs.typed_link hp.typed hx.typed, fun c => ?_, ?_⟩
  · rw [hx.counts, hpools, hp.grows.counts, hs.total_link, Nat.add_assoc]
  · have hc := hx.cut
    show if site = .property ∧ x.2 = true then r'.cut = true ∧ p.rep.link x.1 ≠ .null
      else r'.cut = (r₀.cut || (p.rep.link x.1).hidden)
    split
    · rename_i h
      rw [if_pos h] at hc
      refine ⟨hc.1, ?_⟩
      cases hrep : p.rep with
      | null => rw [hrep] at hs; exact hs.elim
      | node => exact OcRep.noConfusion
    · rename_i h
      rw [if_neg h, hcut, hp.grows.cut] at hc
      rw [hc, hs.hidden_link, Bool.or_assoc]

theorem parseMembers_left (hn : Parses d next)
    (hnn : ∀ i e c a n, next = .item i e c a n →
      ∀ site r, Sat (parseMembers d site n) r (MembersLeft site r) Stops)
    (site : Site) (r : Run) :
    Sat (parseMembers d site (.item i enter content advance next)) r (MembersLeft site r) Stops := by
  unfold parseMembers
  refine Sat.ite (fun _ => Sat.pure (MembersLeft.nil site r)) fun _ => ?_
  refine Sat.bind (parseKey_left i advance (fun name r => hn.value name r) r) fun p r₁ hp => ?_
  refine Sat.bind (leaveMembers_left site hp.single) fun left r₂ hl => ?_
  obtain ⟨hleft, herr, hpools, hsingle, hcut⟩ := hl
  refine Sat.ite (fun hb => Sat.pure ?_) fun hb => ?_
  · -- the loop is left
    refine ⟨hp.left.typed, fun c => by rw [hpools]; exact hp.left.grows.counts c, ?_⟩
    split
    · rename_i h
      rw [if_pos h.1, hb, Bool.or_true] at hcut
      refine ⟨hcut.1, fun hnull => ?_⟩
      have hs : p.rep.Single := hcut.2
      have hnull : p.rep = .null := hnull
      rw [hnull] at hs
      exact hs
    · rename_i h
      rw [if_neg fun hs => h ⟨hs, rfl⟩] at hcut
      rw [hcut]
      exact hp.left.grows.cut
  · have hs := hsingle (Bool.eq_false_iff.mpr hb)
    have hcut₂ : r₂.cut = r₁.cut := by
      split at hcut
      · rw [hcut.1, Bool.eq_false_iff.mpr hb, Bool.or_false]
      · exact hcut
    refine Sat.ite (fun _ => ?_) fun _ => ?_
    · cases hnext : next with
      | atEnd =>
        have hnil := (MembersLeft.nil site r₂).cons hp.left hs hpools hcut₂
        rw [hs.link_null] at hnil
        exact Sat.pure hnil
      | item i' e' c' a' n' =>
        refine sat_orError (Sat.bind (hnn _ _ _ _ _ hnext site _) fun x r' hx => Sat.pure ?_)
        exact hx.cons hp.left hs hpools hcut₂
    · refine sat_orError (Sat.bind (hn.members site _) fun x r' hx => Sat.pure ?_)
      exact hx.cons hp.left hs hpools hcut₂

theorem ElementsLeft.refl {cur : Cur} (hs : cur.Sound) (h : Grows r r' (fun _ => 0) false) :
    ElementsLeft cur r cur r' :=
  ⟨hs, _, _, h, fun _ => rfl, (Bool.or_false _).symm⟩

theorem ElementsLeft.trans {cur cur' cur'' : Cur} {r₀ r₁ : Run} (h' : ElementsLeft cur' r cur'' r')
    (h : ElementsLeft cur r₀ cur' r₁) (hp : r.pools = r₁.pools) (hc : r.cut = r₁.cut) :
    ElementsLeft cur r₀ cur'' r' := by
  obtain ⟨-, f, b, hg, hf, hb⟩ := h
  obtain ⟨hs, f', b', hg', hf', hb'⟩ := h'
  refine ⟨hs, _, _, (hg.congr hp hc).trans hg', fun c => ?_, ?_⟩
  · have := hf c
    have := hf' c
    omega
  · rw [hb', hb, Bool.or_assoc]

theorem Kept.elements {cur cur' : Cur} (h : Kept cur r (some cur') r') : ElementsLeft cur r cur' r' := by
  obtain ⟨hs, hobj, f, hg, hf⟩ := h
  refine ⟨hs, f, false, hg, fun c => ?_, ?_⟩
  · rw [hobj, hf c]
    omega
  · rw [hobj, Bool.or_false]

/-- an object of an array: a node, and its members -/
theorem ElementsLeft.object {cur : Cur} (hs : cur.Sound) (hf : followed cur.type) {x : OcRep × Bool}
    {r₀ : Run} (hx : MembersLeft .object r x r')
    (hp : r.pools = { r₀.pools with reps := r₀.pools.reps + 1 }) (hc : r.cut = r₀.cut) :
    ElementsLeft cur r₀ { cur with objects := cur.objects ++ [x.1] } r' := by
  refine ⟨⟨hs.type, hs.pool, fun rep hrep => ?_, fun _ => hf⟩, fun c => c.node + x.1.total c, x.1.hidden,
    ⟨fun c => ?_, ?_⟩, fun c => ?_, hidden_linkObjects_append _ _⟩
  · rcases List.mem_append.mp hrep with h | h
    · exact hs.objects rep h
    · exact List.mem_singleton.mp h ▸ hx.typed
  · rw [hx.counts, hp, ← Nat.add_assoc]
    exact congrArg (· + _) ((Grows.node r₀).counts c)
  · have hcut := hx.cut
    rw [if_neg fun h => Site.noConfusion h.1, hc] at hcut
    exact hcut
  · show _ + (linkObjects (cur.objects ++ [x.1])).total c = _
    rw [total_linkObjects_append, Nat.add_assoc]

theorem parseElements_left (hc : Parses d content) (hn : Parses d next) (len k : Nat) {cur : Cur}
    (hs : cur.Sound) (hk : cur.Fresh k) (r : Run) :
    Sat (parseElements d len (.item i enter content advance next) k cur) r (ElementsLeft cur r)
      Stops := by
  have hnext : ∀ cur' r₁ (r₂ : Run), ElementsLeft cur r cur' r₁ → r₂.pools = r₁.pools →
      r₂.cut = r₁.cut → Sat (parseElements d len next (k + 1) cur') r₂ (ElementsLeft cur r) Stops :=
    fun cur' r₁ r₂ h hp hcut => (hn.elements len (k + 1) cur' r₂ h.sound fun h => absurd h (by omega)).imp
      (fun _ _ h' => h'.trans h hp hcut) fun _ _ h => h
  unfold parseElements
  cases i with
  | map =>
    -- the type of the array, which is set before anything is parsed
    have hcur : ∃ cur', (if k = 0 then { cur with type := ocRepObject ||| ocRepArray } else cur) = cur' ∧
        cur'.Sound ∧ cur'.value = cur.value ∧ cur'.objects = cur.objects := by
      refine ⟨_, rfl, ?_⟩
      split
      · rename_i h0
        rw [hk h0]
        exact ⟨⟨by decide, rfl, fun _ h => absurd h List.not_mem_nil, fun h => absurd rfl h⟩, rfl, rfl⟩
      · exact ⟨hs, rfl, rfl⟩
    obtain ⟨cur', hcur, hs', hvalue, hobj⟩ := hcur
    have hsame : ∀ r', Grows r r' (fun _ => 0) false → ElementsLeft cur r cur' r' := fun r' h =>
      ⟨hs', _, _, h, fun c => by rw [hvalue, hobj]; rfl, by rw [hobj, Bool.or_false]⟩
    show Sat (let cur := if k = 0 then { cur with type := ocRepObject ||| ocRepArray } else cur; _) r _ _
    rw [hcur]
    refine Sat.ite (fun _ => ?_) fun hmask => ?_
    · exact sat_orError (Sat.pure (hsame _ (Grows.same rfl rfl)))
    · have hf := followed_of_object cur'.type hs'.type (Decidable.not_not.mp hmask)
      refine sat_allocRep ?_ ?_
      · refine Sat.ite (fun _ => ?_) fun h => absurd rfl h
        exact sat_setError (Sat.pure (hsame _ (Grows.same rfl rfl)))
      · refine Sat.ite (fun h => Bool.noConfusion h) fun _ => sat_orError ?_
        refine Sat.bind (hc.members .object _) fun x r₁ hx => ?_
        have hobject := (ElementsLeft.object hs' hf hx rfl rfl).trans
          (hsame r (Grows.same rfl rfl)) rfl rfl
        refine Sat.ite (fun _ => Sat.pure hobject) fun _ => ?_
        refine sat_failed (Sat.ite (fun _ => Sat.pure hobject) fun _ => sat_orError ?_)
        exact hnext _ r₁ _ hobject rfl rfl
  | _ =>
    refine Sat.bind (parseScalar_grows d len _ hs hk r) fun x r₁ h => ?_
    cases x with
    | none => exact Sat.pure (ElementsLeft.refl hs h)
    | some cur' =>
      refine sat_failed (Sat.ite (fun _ => Sat.pure h.elements) fun _ => sat_orError ?_)
      exact hnext cur' r₁ _ h.elements rfl rfl

/-! ## payloads -/

/-- an iterator, and the one behind its first item -/
theorem parses (d : Bool) (v : CborValue) : Parses d v ∧ ∀ i e c a n, v = .item i e c a n →
    ∀ site r, Sat (parseMembers d site n) r (MembersLeft site r) Stops := by
  induction v with
  | atEnd =>
    refine ⟨⟨fun name r => ?_, fun site r => ?_, fun len k cur r hs _ => ?_⟩, fun _ _ _ _ _ h => ?_⟩
    · exact sat_orError (Sat.pure (Valued.of_none rfl (Grows.same rfl rfl)))
    · exact Sat.pure (MembersLeft.nil site r)
    · exact Sat.pure (ElementsLeft.refl hs (Grows.same rfl rfl))
    · exact CborValue.noConfusion h
  | item i enter content advance next ihc ihn =>
    refine ⟨⟨parseValue_valued ihc.1, parseMembers_left ihn.1 ihn.2, ?_⟩, ?_⟩
    · exact fun len k cur r hs hk => parseElements_left ihc.1 ihn.1 len k hs hk r
    · intro _ _ _ _ _ h
      obtain ⟨-, -, -, -, rfl⟩ := CborValue.item.inj h
      exact ihn.1.members

theorem enterContainer_same (i : CborItem) (enter : CborError) (r : Run) :
    Sat (enterContainer i enter) r (fun _ r' => r'.pools = r.pools ∧ r'.cut = r.cut) Stops := by
  unfold enterContainer
  refine Sat.ite (fun _ => ?_) fun _ => Sat.throw fun h => Fault.noConfusion h
  exact ⟨rfl, rfl⟩

/-- the objects of a payload that is an array -/
theorem parseObjects_left (d : Bool) (v : CborValue) : ∀ r, Sat (parseObjects d v) r (Left r) Stops := by
  induction v with
  | atEnd => exact fun r => Sat.pure ⟨trivial, Grows.same rfl rfl⟩
  | item i enter content advance next _ ihn =>
    intro r
    have hnil : Left r .null r := ⟨trivial, Grows.same rfl rfl⟩
    unfold parseObjects
    refine Sat.ite (fun _ => Sat.pure hnil) fun _ => sat_allocRep ?_ ?_
    · refine Sat.ite (fun _ => ?_) fun h => absurd rfl h
      exact sat_setError (Sat.pure ⟨trivial, Grows.same rfl rfl⟩)
    · refine Sat.ite (fun h => Bool.noConfusion h) fun _ => ?_
      refine Sat.bind (enterContainer_same i enter _) fun _ r₁ h₁ => ?_
      refine Sat.bind ((parses d content).1.members .root r₁) fun x r₂ hx => ?_
      have hobject : Left r (.node ocRepObject .none .none x.1 .null) r₂ := by
        refine ⟨⟨rfl, hx.typed, trivial⟩, fun c => ?_, ?_⟩
        · have hnode : r₁.pools.count c = r.pools.count c + c.node := by
            rw [h₁.1]
            exact (Grows.node r).counts c
          have hname : OcString.none.own c = 0 := rfl
          have hvalue : RepValue.none.own c = 0 := rfl
          have hnext : OcRep.null.total c = 0 := rfl
          rw [hx.counts, hnode, total_node, hname, hvalue, hnext]
          omega
        · have hcut := hx.cut
          rw [if_neg fun h => Site.noConfusion h.1, h₁.2] at hcut
          show r₂.cut = (r.cut || (x.1.hidden || false))
          rw [hcut, Bool.or_false]
      refine Sat.ite (fun _ => Sat.pure hobject) fun _ => sat_failed ?_
      refine Sat.ite (fun _ => Sat.pure hobject) fun _ => sat_orError ?_
      refine Sat.bind (ihn _) fun rep r' h => Sat.pure ?_
      have hs : (OcRep.node ocRepObject .none .none x.1 .null).Single := rfl
      refine ⟨hs.typed_link hobject.typed h.typed, fun c => ?_, ?_⟩
      · rw [h.grows.counts, hs.total_link, ← Nat.add_assoc]
        exact congrArg (· + _) (hobject.grows.counts c)
      · rw [h.grows.cut, hs.hidden_link, ← Bool.or_assoc]
        exact congrArg (· || _) hobject.grows.cut

theorem ocParseRep_left (d : Bool) (init : CborError) (root : CborValue) (r : Run) :
    Sat (ocParseRep d init root) r (Left r) Stops := by
  have hnil : ∀ r', r'.pools = r.pools → r'.cut = r.cut → Left r .null r' := fun r' hp hc =>
    ⟨trivial, Grows.same hp hc⟩
  unfold ocParseRep
  refine sat_orError ?_
  cases root with
  | atEnd => exact Sat.pure (hnil _ rfl rfl)
  | item i enter content advance next =>
    cases i with
    | map =>
      refine sat_orError (Sat.bind ((parses d content).1.members .root _) fun x r' h => Sat.pure ?_)
      have hcut := h.cut
      rw [if_neg fun h => Site.noConfusion h.1] at hcut
      exact ⟨h.typed, h.counts, hcut⟩
    | array length =>
      refine sat_orError ((parseObjects_left d content _).imp (fun _ _ h => ?_) fun _ _ h => h)
      exact ⟨h.typed, h.grows.counts, h.grows.cut⟩
    | _ => exact Sat.pure (hnil _ rfl rfl)

/-! ## parsing and freeing -/

/-- a call of `oc_parse_rep` -/
def parse (d : Bool) (init : CborError) (root : CborValue) (pools : Pools) :
    EStateM.Result Fault Run OcRep :=
  ocParseRep d init root ⟨0, pools, [], false⟩

/-- the state at the end -/
def final : EStateM.Result Fault Run OcRep → Run
  | .ok _ r => r
  | .error _ r => r

/-- an assertion ends the program: `oc_assert`, or the one that tinycbor makes of containers -/
def Aborted : EStateM.Result Fault Run OcRep → Prop
  | .ok _ _ => False
  | .error f _ => f ≠ .nullWrite

/-- No store has gone astray, and behind `oc_free_rep` as much is in use as before. -/
def Released (pools : Pools) : EStateM.Result Fault Run OcRep → Prop
  | .ok rep r => (∀ s ∈ r.stores, s.Inside) ∧ ∀ c, (ocFreeRep rep r.pools).count c = pools.count c
  | .error _ _ => False

/-- `name`, of one byte -/
def keyItem (name : UInt8) : CborItem := .textString ⟨1, 0, [name], 0⟩

/-- `{"a": {1: 2}}` -/
def nestedPayload : CborValue :=
  .item .map 0 (.item (keyItem 0x61) 0 .atEnd 0 (.item .map 0
    (.item (.integer 1 0) 0 .atEnd 0 (.item (.integer 2 0) 0 .atEnd 0 .atEnd)) 0 .atEnd)) 0 .atEnd

def samplePools : Pools := ⟨some 10, fun _ => some 100, 0, fun _ => 0, fun _ => 0⟩

end Payload
