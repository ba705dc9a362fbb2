import Iotivity.Payload.RoundTrip

/-!
# Arrays of objects

A payload can be an array of objects, and objects can hold arrays that turn out to be empty.

* `membersOf`, `objectsOf`   members and objects from lists;
* `Returns`                  a builder that writes items and returns a value;
* `Read`, `ReadMembers`      what the parser makes a tree of;
* `parse_objects`            the tree of a payload;
* `objects_got_iff`          what is read back from it;
* `reads_members`            and from an object, key by key.
-/

namespace Payload
open Triple

/-! ## lists of members and objects -/

/-- members with these keys and values -/
def membersOf (l : List (CString × Value)) : Members := l.foldr (fun m ms => .cons m.1 m.2 ms) .nil

def objectsOf (l : List Members) : Objects := l.foldr .cons .nil

/-- strings that are added one after the other -/
def texts (l : List CString) : Value := .array false (.texts l)

/-- an array of objects; when it is empty, nothing is known of its elements -/
def objects : List Members → Value
  | [] => texts []
  | ms :: l => .objects (objectsOf (ms :: l))

/-- a payload that is an array of objects -/
def payloadOf (os : Objects) : CborValue := view [(.array none, view os.items)]

theorem objectsOf_items (l : List Members) : (objectsOf l).items = l.map fun m => (.map, view m.items) := by
  induction l with
  | nil => rfl
  | cons m l ih =>
    show (.map, view m.items) :: (objectsOf l).items = _
    rw [ih]
    rfl

theorem membersOf_append (l l' : List (CString × Value)) :
    (membersOf (l ++ l')).items = (membersOf l).items ++ (membersOf l').items := by
  induction l with
  | nil => rfl
  | cons m l ih =>
    show _ :: _ :: (membersOf (l ++ l')).items = _
    rw [ih]
    rfl

theorem objects_item (l : List Members) : (objects l).item = (.array none, view (objectsOf l).items) := by
  cases l <;> rfl

/-! ## builders -/

section
variable {c : Encoder}

section
variable {k : CString} {v : Value} {b b' : Builder Unit} {l : List (CString × Value)}

/-- a member in front of others -/
theorem Builds.member (h : Builds c b [(textItem k.bytes, .atEnd), v.item])
    (h' : Builds c b' (membersOf l).items) : Builds c (do b; b') (membersOf ((k, v) :: l)).items := h.seq h'

theorem Builds.lastMember (h : Builds c b [(textItem k.bytes, .atEnd), v.item]) :
    Builds c b (membersOf [(k, v)]).items := h

theorem Builds.objectArray {l : List Members} (h : Builds c b (objectsOf l).items) :
    Builds c (ocRepOpenArray c k b) [(textItem k.bytes, .atEnd), (objects l).item] := by
  rw [objects_item]
  exact h.setContainer k _

end

/-- a loop that leaves something out -/
theorem builds_filter {α : Type} {f : α → Builder Unit} {g : α → CborItem × CborValue} {p : α → Prop}
    [DecidablePred p] (h : ∀ x, Builds c (f x) [g x]) (l : List α) :
    Builds c (l.forM fun x => if p x then f x else pure ()) ((l.filter fun x => decide (p x)).map g) := by
  induction l with
  | nil => exact builds_pure
  | cons x l ih =>
    by_cases hp : p x
    · have hfilter : (x :: l).filter (fun x => decide (p x)) = x :: l.filter fun x => decide (p x) :=
        List.filter_cons_of_pos (decide_eq_true hp)
      have hstep : Builds c (if p x then f x else pure ()) [g x] := by
        rw [if_pos hp]
        exact h x
      rw [hfilter]
      exact hstep.seq ih
    · have hfilter : (x :: l).filter (fun x => decide (p x)) = l.filter fun x => decide (p x) :=
        List.filter_cons_of_neg (by rwa [decide_eq_true_eq])
      have hstep : Builds c (if p x then f x else pure ()) [] := by
        rw [if_neg hp]
        exact builds_pure
      rw [hfilter]
      exact hstep.seq ih

variable (c) in
/-- `cborContainer`, for a content that returns something -/
def returning {α : Type} (i : CborItem) (content : Builder α) : Builder α := do
  let outer ← get
  c.write (c.bytes i)
  modify fun e => { e with items := [] }
  let a ← content
  c.write i.breakBytes
  modify fun e => { e with items := outer.items ++ [(i, view e.items)] }
  return a

variable (c) in
/-- a builder that writes items, and what it returns -/
def Returns {α : Type} (b : Builder α) (a : α) (items : List (CborItem × CborValue)) : Prop :=
  ∀ used front, b (c.state used front) = (a, c.state (used + c.cost (view items)) (front ++ items))

section
variable {α β : Type} {b : Builder α} {f : α → Builder β} {a : α} {a' : β}
  {l l' : List (CborItem × CborValue)}

theorem returns_pure (a : α) : Returns c (pure a) a [] := by
  intro used front
  rw [List.append_nil]
  rfl

theorem Returns.bind (h : Returns c b a l) (h' : Returns c (f a) a' l') :
    Returns c (b >>= f) a' (l ++ l') := by
  intro used front
  show (f (b (c.state used front)).1) (b (c.state used front)).2 = _
  rw [h, h', cost_append, Nat.add_assoc, List.append_assoc]

/-- behind a builder that returns nothing -/
theorem Returns.behind {b : Builder Unit} {b' : Builder β} (h : Builds c b l) (h' : Returns c b' a' l') :
    Returns c (do b; b') a' (l ++ l') := Returns.bind (a := ()) h h'

theorem Returns.container (h : Returns c b a l) (i : CborItem) :
    Returns c (returning c i b) a [(i, view l)] := by
  intro used front
  have hopen : returning c i b (c.state used front) =
      ((b { (c.write (c.bytes i) (c.state used front)).2 with items := [] }).1,
        (fun e : Encoding => { e with items := front ++ [(i, view e.items)] })
          (c.write i.breakBytes
            (b { (c.write (c.bytes i) (c.state used front)).2 with items := [] }).2).2) := rfl
  have hnone : { (c.state (used + c.bytes i) front) with items := [] } =
      c.state (used + c.bytes i) [] := rfl
  have hcost : used + c.bytes i + c.cost (view l) + i.breakBytes =
      used + c.cost (view [(i, view l)]) := by
    show _ = used + (c.bytes i + c.cost (view l) + i.breakBytes + 0)
    omega
  rw [hopen, write_state, hnone, h, write_state, hcost]
  rfl

/-- an array of objects, as the last member -/
theorem Returns.objectArray {l : List Members} {k : CString} (h : Returns c b a (objectsOf l).items) :
    Returns c (do
      cborEncode c (textItem k.bytes)
      returning c (.array none) b) a (membersOf [(k, objects l)]).items := by
  show Returns c _ a ([(textItem k.bytes, .atEnd)] ++ [(objects l).item])
  rw [objects_item]
  exact Returns.behind (builds_item rfl) (h.container (.array none))

end

end

/-! ## parsing -/

section
variable (d : Bool)

/-- a value that is parsed, wherever it stands -/
structure Read (v : Value) : Prop where
  goes : ∀ name next,
    Goes (parseValue d name (.item v.item.1 0 v.item.2 0 next)) (v.allocs d) (v.node d name)
  granted : ∀ b ∈ v.allocs d, b.Granted

structure ReadMembers (ms : Members) : Prop where
  goes : ∀ site, Goes (parseMembers d site (view ms.items)) (ms.allocs d) (ms.rep d, false)
  granted : ∀ b ∈ ms.allocs d, b.Granted

variable {d} {c : Encoder}

/-- an object whose arrays have elements and survive -/
theorem read_valid {v : Value} (hv : v.Valid d) (hcost : c.cost (view [v.item]) < 2^31)
    (hs : ∀ a ∈ v.arrays, Survives d a) : Read d v where
  goes name next := value_goes name next v hv hcost
  granted := ((survives_value v hv hcost).mpr hs).1

theorem read_empty : Read d (texts []) where
  goes name next := by
    have hnone : ∀ i ∈ ([] : List CborItem), i.Clean d ∧ i.code = 0 := nofun
    exact parseArray_goes hnone (.inl rfl) name
  granted := nofun

theorem readMembers {l : List (CString × Value)} (h : ∀ m ∈ l, m.1.bytes.length < 2^31 ∧ Read d m.2) :
    ReadMembers d (membersOf l) := by
  induction l with
  | nil => exact ⟨fun _ => Goes.pure, nofun⟩
  | cons m l ih =>
    obtain ⟨⟨hkey, hv⟩, hl⟩ := List.forall_mem_cons.mp h
    have hms := ih hl
    refine ⟨fun site => ?_, ?_⟩
    · exact parseMember_goes hkey (node_ne_null m.1.name m.2) (hv.goes m.1.name _) (hms.goes site)
    · show ∀ b ∈ Alloc.node :: .block .byte (m.1.bytes.length + 1) :: (m.2.allocs d ++ _), b.Granted
      rw [List.forall_mem_cons, List.forall_mem_cons, List.forall_mem_append]
      exact ⟨trivial, granted_string hkey, hv.granted, hms.granted⟩

theorem granted_objects {l : List Members} (h : ∀ ms ∈ l, ReadMembers d ms) :
    ∀ b ∈ (objectsOf l).allocs d, b.Granted := by
  induction l with
  | nil => exact nofun
  | cons ms l ih =>
    obtain ⟨hms, hl⟩ := List.forall_mem_cons.mp h
    show ∀ b ∈ Alloc.node :: (ms.allocs d ++ (objectsOf l).allocs d), b.Granted
    rw [List.forall_mem_cons, List.forall_mem_append]
    exact ⟨trivial, hms.granted, ih hl⟩

theorem elements_goes (len : Nat) {l : List Members} (h : ∀ ms ∈ l, ReadMembers d ms) (k : Nat) (hk : k ≠ 0)
    (front : List OcRep) :
    Goes (parseElements d len (view (objectsOf l).items) k ⟨ocRepObject ||| ocRepArray, .none, front⟩)
      ((objectsOf l).allocs d) ⟨ocRepObject ||| ocRepArray, .none, front ++ (objectsOf l).list d⟩ := by
  induction l generalizing k front with
  | nil =>
    show Goes _ _ (Cur.mk _ _ (front ++ []))
    rw [List.append_nil]
    exact Goes.pure
  | cons ms l ih =>
    obtain ⟨hms, hl⟩ := List.forall_mem_cons.mp h
    have hnext := ih hl (k + 1) (Nat.succ_ne_zero k) (front ++ [ms.rep d])
    rw [List.append_assoc] at hnext
    exact parseObject_goes (if_neg hk) (hms.goes .object) hnext

theorem read_objects {l : List Members} (h : ∀ ms ∈ l, ReadMembers d ms) : Read d (objects l) := by
  cases l with
  | nil => exact read_empty
  | cons ms l =>
    obtain ⟨hms, hl⟩ := List.forall_mem_cons.mp h
    refine ⟨fun name next => ?_, granted_objects h⟩
    show Goes (parseValue d name (.item (.array none) 0 (view (objectsOf (ms :: l)).items) 0 next)) _ _
    unfold parseValue
    refine goes_orError ((arrayLength_goes (Or.inl rfl)).behind ?_)
    refine Goes.last (parseObject_goes rfl (hms.goes .object)
      (elements_goes _ hl 1 Nat.one_ne_zero [ms.rep d])) Goes.pure

/-- the objects of a payload, from one of them on -/
theorem parseObjects_goes {l : List Members}
    (h : ∀ ms ∈ l, ∀ site, Goes (parseMembers d site (view ms.items)) (ms.allocs d) (ms.rep d, false)) :
    Goes (parseObjects d (view (objectsOf l).items)) ((objectsOf l).allocs d)
      (linkObjects ((objectsOf l).list d)) := by
  induction l with
  | nil => exact Goes.pure
  | cons ms l ih =>
    obtain ⟨hms, hl⟩ := List.forall_mem_cons.mp h
    show Goes (parseObjects d (.item .map 0 (view ms.items) 0 (view (objectsOf l).items)))
      (.node :: (ms.allocs d ++ (objectsOf l).allocs d)) _
    unfold parseObjects
    rw [if_neg (by decide)]
    refine goes_allocRep ?_
    rw [if_neg (by decide)]
    show Goes (orError 0 >>= fun _ => parseMembers d .root (view ms.items) >>= _) _ _
    refine goes_orError ((hms .root).bind ?_)
    refine goes_failed (goes_orError ?_)
    exact (ih hl).last Goes.pure

/-- a payload of objects is parsed, if and only if what is allocated is granted -/
theorem parsed_iff {l : List Members} {pools : Pools} (hroom : Room ((objectsOf l).allocs d) pools)
    (h : ∀ ms ∈ l, ∀ site, Goes (parseMembers d site (view ms.items)) (ms.allocs d) (ms.rep d, false))
    (rep : OcRep) : (∃ r, parse d 0 (payloadOf (objectsOf l)) pools = .ok rep r ∧ r.err = 0) ↔
      rep = linkObjects ((objectsOf l).list d) ∧ ∀ b ∈ (objectsOf l).allocs d, b.Granted := by
  have hgoes : Goes (ocParseRep d 0 (payloadOf (objectsOf l))) ((objectsOf l).allocs d)
      (linkObjects ((objectsOf l).list d)) := by
    unfold ocParseRep
    exact goes_orError (goes_orError (parseObjects_goes h))
  have hsat := hgoes ⟨0, pools, [], false⟩ [] rfl (by rwa [List.append_nil])
  unfold Sat at hsat
  have hparse : parse d 0 (payloadOf (objectsOf l)) pools =
    ocParseRep d 0 (payloadOf (objectsOf l)) ⟨0, pools, [], false⟩ := rfl
  rw [hparse]
  cases hrun : ocParseRep d 0 (payloadOf (objectsOf l)) ⟨0, pools, [], false⟩ with
  | ok tree r =>
    rw [hrun] at hsat
    obtain ⟨htree, herr, -, hgranted⟩ := hsat
    constructor
    · rintro ⟨_, hok, -⟩
      obtain ⟨rfl, -⟩ := EStateM.Result.ok.inj hok
      exact ⟨htree, hgranted⟩
    · rintro ⟨rfl, -⟩
      exact ⟨r, congrArg (EStateM.Result.ok · r) htree, herr⟩
  | error f r =>
    rw [hrun] at hsat
    refine iff_of_false ?_ fun hr => hsat hr.2
    rintro ⟨_, hok, -⟩
    cases hok

/-- where there is memory, a payload is parsed to its objects -/
theorem parse_objects {l : List Members} (h : ∀ ms ∈ l, ReadMembers d ms) {pools : Pools}
    (hroom : Room ((objectsOf l).allocs d) pools) :
    ∃ r, parse d 0 (payloadOf (objectsOf l)) pools = .ok (linkObjects ((objectsOf l).list d)) r := by
  obtain ⟨r, hr, -⟩ := (parsed_iff hroom (fun ms hms => (h ms hms).goes) _).mpr ⟨rfl, granted_objects h⟩
  exact ⟨r, hr⟩

/-! ## what fits in a buffer -/

theorem cost_member {l : List (CString × Value)} {m : CString × Value} (hm : m ∈ l) :
    c.cost (view [m.2.item]) ≤ c.cost (view (membersOf l).items) := by
  induction l with
  | nil => cases hm
  | cons x l ih =>
    have hrest : c.cost (view (x.2.item :: (membersOf l).items)) ≤ c.cost (view (membersOf (x :: l)).items) :=
      rest_le_cost
    rcases List.mem_cons.mp hm with rfl | hm
    · exact Nat.le_trans first_le_cost hrest
    · exact Nat.le_trans (ih hm) (Nat.le_trans rest_le_cost hrest)

theorem cost_object {l : List Members} {ms : Members} (hm : ms ∈ l) :
    c.cost (view ms.items) ≤ c.cost (view (objectsOf l).items) := by
  induction l with
  | nil => cases hm
  | cons x l ih =>
    have hrest : c.cost (view (objectsOf l).items) ≤ c.cost (view (objectsOf (x :: l)).items) :=
      Nat.le_add_left _ _
    rcases List.mem_cons.mp hm with rfl | hm
    · exact content_le_cost
    · exact Nat.le_trans (ih hm) hrest

theorem cost_key {l : List (CString × Value)} {m : CString × Value} (hm : m ∈ l) :
    m.1.bytes.length < c.cost (view (membersOf l).items) := by
  induction l with
  | nil => cases hm
  | cons x l ih =>
    rcases List.mem_cons.mp hm with rfl | hm
    · exact data_lt_cost (i := textItem m.1.bytes)
    · have hrest : c.cost (view (x.2.item :: (membersOf l).items)) ≤
          c.cost (view (membersOf (x :: l)).items) := rest_le_cost
      exact Nat.lt_of_lt_of_le (ih hm) (Nat.le_trans rest_le_cost hrest)

/-- members that fit in a buffer -/
theorem readMembers_of_cost {l : List (CString × Value)} (hcost : c.cost (view (membersOf l).items) < 2^31)
    (h : ∀ m ∈ l, c.cost (view [m.2.item]) < 2^31 → Read d m.2) : ReadMembers d (membersOf l) :=
  readMembers fun m hm => ⟨Nat.lt_trans (cost_key hm) hcost,
    h m hm (Nat.lt_of_le_of_lt (cost_member hm) hcost)⟩

/-- objects that fit in a buffer -/
theorem read_objects_of_cost {l : List Members} (hcost : c.cost (view [(objects l).item]) < 2^31)
    (h : ∀ ms ∈ l, c.cost (view ms.items) < 2^31 → ReadMembers d ms) : Read d (objects l) := by
  rw [objects_item] at hcost
  exact read_objects fun ms hms =>
    h ms hms (Nat.lt_of_le_of_lt (cost_object hms) (Nat.lt_of_le_of_lt content_le_cost hcost))

/-! ## objects that are read back -/

theorem keys_membersOf (l : List (CString × Value)) : (membersOf l).keys = l.map Prod.fst := by
  induction l with
  | nil => rfl
  | cons x l ih => exact congrArg (x.1 :: ·) ih

/-- where keys are distinct, a key leads to its value -/
theorem look_member {l : List (CString × Value)} (hkeys : (l.map Prod.fst).Nodup) {m : CString × Value}
    (hm : m ∈ l) (type : Nat) : ocRepGetValue type m.1 ((membersOf l).rep d) =
      ocRepGetValue type m.1 (m.2.node d m.1.name) := by
  induction l with
  | nil => cases hm
  | cons x l ih =>
    obtain ⟨hx, hl⟩ := List.nodup_cons.mp hkeys
    show ocRepGetValue type m.1 ((x.2.node d x.1.name).link ((membersOf l).rep d)) = _
    rcases List.mem_cons.mp hm with rfl | hm
    · refine get_value m.2 (get_none _ ?_)
      rwa [keys_membersOf]
    · have hne : x.1 ≠ m.1 := fun he => hx (he ▸ List.mem_map_of_mem hm)
      rw [get_rest x.2 hne, ih hl hm]

variable (d) in
/-- the members of an object are read back, but for empty arrays and strings that do not fit -/
def Reads (l : List (CString × Value)) (rep : OcRep) : Prop := ∀ m ∈ l, m.2.Valid d → m.2.Got d rep m.1

theorem reads_members {l : List (CString × Value)} (hkeys : (l.map Prod.fst).Nodup)
    (hcost : c.cost (view (membersOf l).items) < 2^31)
    (hcounted : ∀ m ∈ l, ∀ a ∈ m.2.arrays, a.2.Counted a.1) : Reads d l ((membersOf l).rep d) :=
  fun m hm hvalid => (got_value_iff m.1 _ m.2 hvalid (Nat.lt_of_le_of_lt (cost_member hm) hcost)
    (look_member hkeys hm)).mpr (hcounted m hm)

theorem valid_objects {l : List Members} : (objectsOf l).Valid d ↔ ∀ ms ∈ l, ms.Valid d := by
  induction l with
  | nil => exact iff_of_true trivial fun _ h => absurd h List.not_mem_nil
  | cons ms l ih =>
    rw [List.forall_mem_cons, ← ih]
    exact Iff.rfl

/-- a payload of objects is read back, if and only if their arrays survive -/
theorem objects_got_iff {l : List Members} {pools : Pools} (hroom : Room ((objectsOf l).allocs d) pools)
    (hvalid : ∀ ms ∈ l, ms.Valid d) (hcost : c.cost (view (objectsOf l).items) < 2^31) :
    (∃ rep r, parse d 0 (payloadOf (objectsOf l)) pools = .ok rep r ∧ r.err = 0 ∧ (objectsOf l).Got d rep) ↔
      ∀ a ∈ (objectsOf l).arrays, Survives d a := by
  have hgo : ∀ ms ∈ l, ∀ site, Goes (parseMembers d site (view ms.items)) (ms.allocs d) (ms.rep d, false) :=
    fun ms hms site => members_go site ms (hvalid ms hms) (Nat.lt_of_le_of_lt (cost_object hms) hcost)
  rw [← survives_objects _ (valid_objects.mpr hvalid) hcost,
    ← got_objects_iff _ (valid_objects.mpr hvalid) hcost]
  constructor
  · rintro ⟨rep, r, hr, herr, hgot⟩
    obtain ⟨rfl, hgranted⟩ := (parsed_iff hroom hgo rep).mp ⟨r, hr, herr⟩
    exact ⟨hgranted, hgot⟩
  · rintro ⟨hgranted, hgot⟩
    obtain ⟨r, hr, herr⟩ := (parsed_iff hroom hgo _).mpr ⟨rfl, hgranted⟩
    exact ⟨_, r, hr, herr, hgot⟩

end

end Payload
