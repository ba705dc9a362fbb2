import Iotivity.Payload.Getters

/-!
# Representations, there and back

An object that has been built with the macros, encoded and parsed is read back as it was set, if memory
suffices, but for two kinds of arrays: those whose block has a size that `_oc_mmem_alloc` returns as 0, and
those of strings with more items than an `int` counts.

* `survives_iff`                     what is allocated is granted, and all items are written;
* `representation_round_trip_iff`.
-/

namespace Payload
open Triple

section
variable (d : Bool)

/-- the size of the block of an array, in bytes -/
def Elements.blockBytes : Elements → Nat
  | .ints l => 4 * l.length
  | .bools l => l.length
  | .doubles l => 8 * l.length
  | .texts l => l.length * stringArrayItemMaxLen d
  | .bytes l => l.length * stringArrayItemMaxLen d

/-- the array comes back: its items are counted, and its block is granted -/
def Survives (a : Bool × Elements) : Prop := a.2.Counted a.1 ∧ a.2.blockBytes d % 2^32 ≠ 0

end

variable {d : Bool} {c : Encoder}

/-! ## what is granted -/

theorem granted_string {n : Nat} (h : n < 2^31) : (Alloc.block .byte (n + 1)).Granted := by
  show 1 * (n + 1) % 2^32 ≠ 0
  omega

theorem arrayAllocs_granted {e : Elements} (h : e.Valid d) :
    (∀ b ∈ arrayAllocs d e.items, b.Granted) ↔ e.blockBytes d % 2^32 ≠ 0 := by
  have hmap : ∀ {α : Type} {f : α → CborItem} {l : List α} {p : Pool} {bytes : Nat}, l ≠ [] →
      (∀ x, (f x).pool = p) → (∀ x, p.width * (f x).units d l.length = bytes) →
      ((∀ b ∈ arrayAllocs d (l.map f), b.Granted) ↔ bytes % 2^32 ≠ 0) := by
    intro α f l p bytes hne hpool hbytes
    cases l with
    | nil => exact absurd rfl hne
    | cons x l =>
      have hlen : (l.map f).length + 1 = (x :: l).length := congrArg (· + 1) (List.length_map _)
      show (∀ b ∈ [Alloc.block (f x).pool ((f x).units d ((l.map f).length + 1))], b.Granted) ↔ _
      rw [List.forall_mem_singleton, hlen, hpool, ← hbytes x]
      rfl
  cases e with
  | ints l => exact hmap h.1 (fun _ => rfl) fun _ => rfl
  | bools l => exact hmap h (fun _ => rfl) fun _ => Nat.one_mul _
  | doubles l => exact hmap h (fun _ => rfl) fun _ => rfl
  | texts l => exact hmap h.1 (fun _ => rfl) fun _ => Nat.one_mul _
  | bytes l => exact hmap h.1 (fun _ => rfl) fun _ => Nat.one_mul _

/-- a value without arrays, and with allocations that are granted -/
theorem survives_plainly {as : List Alloc} (h : ∀ b ∈ as, b.Granted) :
    ((∀ b ∈ as, b.Granted) ∧ ∀ a ∈ ([] : List (Bool × Elements)), a.2.Counted a.1) ↔
      ∀ a ∈ ([] : List (Bool × Elements)), Survives d a :=
  iff_of_true ⟨h, fun _ ha => absurd ha List.not_mem_nil⟩ fun _ ha => absurd ha List.not_mem_nil

/-- one thing behind the other -/
theorem survives_append {as bs : List Alloc} {xs ys : List (Bool × Elements)}
    (hx : ((∀ b ∈ as, b.Granted) ∧ ∀ a ∈ xs, a.2.Counted a.1) ↔ ∀ a ∈ xs, Survives d a)
    (hy : ((∀ b ∈ bs, b.Granted) ∧ ∀ a ∈ ys, a.2.Counted a.1) ↔ ∀ a ∈ ys, Survives d a) :
    ((∀ b ∈ as ++ bs, b.Granted) ∧ ∀ a ∈ xs ++ ys, a.2.Counted a.1) ↔
      ∀ a ∈ xs ++ ys, Survives d a := by
  rw [List.forall_mem_append, List.forall_mem_append, List.forall_mem_append, ← hx, ← hy]
  exact and_and_and_comm

/-- a node and what is granted in any case come in front -/
theorem survives_cons {b : Alloc} {as : List Alloc} {xs : List (Bool × Elements)} (hb : b.Granted)
    (h : ((∀ b ∈ as, b.Granted) ∧ ∀ a ∈ xs, a.2.Counted a.1) ↔ ∀ a ∈ xs, Survives d a) :
    ((∀ b' ∈ b :: as, b'.Granted) ∧ ∀ a ∈ xs, a.2.Counted a.1) ↔ ∀ a ∈ xs, Survives d a := by
  rw [List.forall_mem_cons, and_iff_right hb]
  exact h

mutual

theorem survives_value : ∀ v : Value, v.Valid d → c.cost (view [v.item]) < 2^31 →
    (((∀ b ∈ v.allocs d, b.Granted) ∧ ∀ a ∈ v.arrays, a.2.Counted a.1) ↔ ∀ a ∈ v.arrays, Survives d a)
  | .int _, _, _ => survives_plainly fun _ h => absurd h List.not_mem_nil
  | .uint _, _, _ => survives_plainly fun _ h => absurd h List.not_mem_nil
  | .boolean _, _, _ => survives_plainly fun _ h => absurd h List.not_mem_nil
  | .double _, _, _ => survives_plainly fun _ h => absurd h List.not_mem_nil
  | .textString s, _, hcost => survives_plainly <| List.forall_mem_singleton.mpr <|
      granted_string (Nat.lt_trans (data_lt_cost (i := textItem s.bytes)) hcost)
  | .byteString s, _, hcost => survives_plainly <| List.forall_mem_singleton.mpr <|
      granted_string (Nat.lt_trans (data_lt_cost (i := byteItem s)) hcost)
  | .array whole e, hvalid, _ => by
    show ((∀ b ∈ arrayAllocs d (e.written whole).items, b.Granted) ∧
      ∀ a ∈ [(whole, e)], a.2.Counted a.1) ↔ ∀ a ∈ [(whole, e)], Survives d a
    rw [List.forall_mem_singleton, List.forall_mem_singleton, and_comm]
    refine and_congr_right fun hcount => ?_
    rw [written_of_counted hvalid hcount]
    exact arrayAllocs_granted hvalid
  | .object ms, hvalid, hcost => survives_iff ms hvalid (Nat.lt_of_le_of_lt content_le_cost hcost)
  | .objects os, hvalid, hcost =>
    survives_objects os hvalid.2 (Nat.lt_of_le_of_lt content_le_cost hcost)

theorem survives_iff : ∀ ms : Members, ms.Valid d → c.cost (view ms.items) < 2^31 →
    (((∀ b ∈ ms.allocs d, b.Granted) ∧ ∀ a ∈ ms.arrays, a.2.Counted a.1) ↔
      ∀ a ∈ ms.arrays, Survives d a)
  | .nil, _, _ => survives_plainly fun _ h => absurd h List.not_mem_nil
  | .cons key v ms, hvalid, hcost => by
    have hkey : key.bytes.length < 2^31 := Nat.lt_trans (data_lt_cost (i := textItem key.bytes)) hcost
    have hrest : c.cost (view (v.item :: ms.items)) < 2^31 := Nat.lt_of_le_of_lt rest_le_cost hcost
    refine survives_cons trivial (survives_cons (granted_string hkey) ?_)
    refine survives_append (survives_value v hvalid.2.1 (Nat.lt_of_le_of_lt first_le_cost hrest)) ?_
    exact survives_iff ms hvalid.2.2 (Nat.lt_of_le_of_lt rest_le_cost hrest)

theorem survives_objects : ∀ os : Objects, os.Valid d → c.cost (view os.items) < 2^31 →
    (((∀ b ∈ os.allocs d, b.Granted) ∧ ∀ a ∈ os.arrays, a.2.Counted a.1) ↔
      ∀ a ∈ os.arrays, Survives d a)
  | .nil, _, _ => survives_plainly fun _ h => absurd h List.not_mem_nil
  | .cons ms os, hvalid, hcost => by
    refine survives_cons trivial ?_
    refine survives_append (survives_iff ms hvalid.1 (Nat.lt_of_le_of_lt content_le_cost hcost)) ?_
    exact survives_objects os hvalid.2 (Nat.lt_of_le_of_lt rest_le_cost hcost)

end

/-! ## there and back -/

/-- An object that fits into the buffer is parsed to its tree, or an allocation is not granted. -/
theorem payload_parsed (ms : Members) (hvalid : ms.Valid d) (hcost : c.cost ms.payload < 2^31)
    {pools : Pools} (hroom : Room (ms.allocs d) pools) :
    match parse d 0 ms.payload pools with
    | .ok rep r => rep = ms.rep d ∧ r.err = 0 ∧ ∀ b ∈ ms.allocs d, b.Granted
    | .error _ _ => ¬ ∀ b ∈ ms.allocs d, b.Granted := by
  have hgoes : Goes (ocParseRep d 0 ms.payload) (ms.allocs d) (ms.rep d) := by
    unfold ocParseRep
    refine goes_orError (goes_orError ?_)
    exact (members_go .root ms hvalid (Nat.lt_of_le_of_lt content_le_cost hcost)).last Goes.pure
  have hsat := hgoes ⟨0, pools, [], false⟩ [] rfl (by rwa [List.append_nil])
  unfold Sat at hsat
  have hparse : parse d 0 ms.payload pools = ocParseRep d 0 ms.payload ⟨0, pools, [], false⟩ := rfl
  rw [hparse]
  cases hrun : ocParseRep d 0 ms.payload ⟨0, pools, [], false⟩ with
  | ok rep r =>
    rw [hrun] at hsat
    exact ⟨hsat.1, hsat.2.1, hsat.2.2.2⟩
  | error f r =>
    rw [hrun] at hsat
    exact hsat

/-- **Representations, there and back.**  If encoding reports no error and memory suffices, all values of an
object are read back, if and only if all of its arrays survive. -/
theorem representation_round_trip_iff (d : Bool) (c : Encoder) (ms : Members) (pools : Pools)
    (hvalid : ms.Valid d) (herr : (encode c ms).err = 0) (hroom : Room (ms.allocs d) pools) :
    (∃ rep r, parse d 0 (view (encode c ms).items) pools = .ok rep r ∧ r.err = 0 ∧ ms.Got d rep) ↔
      ∀ a ∈ ms.arrays, Survives d a := by
  have hcost : c.cost ms.payload < 2^31 := Nat.lt_of_le_of_lt ((encode_err ms).mp herr) c.size_lt
  have hmembers : c.cost (view ms.items) < 2^31 := Nat.lt_of_le_of_lt content_le_cost hcost
  have hitems : view (encode c ms).items = ms.payload := by
    rw [encode_eq]
    rfl
  have hparsed := payload_parsed ms hvalid hcost hroom
  have hgot := got_members_iff (ms.rep d) ms hvalid hmembers fun _ _ _ => rfl
  rw [hitems, ← survives_iff ms hvalid hmembers, ← hgot]
  cases hrun : parse d 0 ms.payload pools with
  | ok rep r =>
    rw [hrun] at hparsed
    obtain ⟨rfl, herr', hgranted⟩ := hparsed
    constructor
    · rintro ⟨_, _, hok, -, h⟩
      obtain ⟨rfl, -⟩ := EStateM.Result.ok.inj hok
      exact ⟨hgranted, h⟩
    · exact fun h => ⟨_, _, rfl, herr', h.2⟩
  | error f r =>
    rw [hrun] at hparsed
    refine iff_of_false ?_ fun h => hparsed h.1
    rintro ⟨_, _, hok, -⟩
    cases hok

/-! ## samples -/

/-- the head of an item with this length or number -/
def cborHead (n : Nat) : Nat :=
  if n < 24 then 1 else if n < 2^8 then 2 else if n < 2^16 then 3 else if n < 2^32 then 5 else 9

def cborBytes : CborItem → Nat
  | .integer v _ => cborHead (if v < 0 then (-1 - v).toNat else v.toNat)
  | .double _ _ => 9
  | .byteString s => cborHead s.data.length + s.data.length
  | .textString s => cborHead s.data.length + s.data.length
  | .array (some n) => cborHead n
  | _ => 1

theorem cborHead_pos (n : Nat) : 0 < cborHead n := by
  unfold cborHead
  split_ifs <;> decide

/-- the format of CBOR, and a buffer as large as it can be -/
def cborEncoder : Encoder where
  size := 2^31 - 1
  bytes := cborBytes
  size_lt := by decide
  data_lt i := by
    cases i with
    | integer v e => exact cborHead_pos _
    | byteString s => exact Nat.lt_add_of_pos_left (cborHead_pos _)
    | textString s => exact Nat.lt_add_of_pos_left (cborHead_pos _)
    | array length =>
      cases length with
      | none => exact Nat.one_pos
      | some n => exact cborHead_pos n
    | double bits e => exact Nat.succ_pos 8
    | _ => exact Nat.one_pos

/-- where there are no capacities, there is memory -/
theorem room_of_unbounded (as : List Alloc) : ∀ {s : Pools}, s.Unbounded → Room as s := by
  induction as with
  | nil => exact fun _ => trivial
  | cons a as ih =>
    intro s h
    cases a with
    | node => exact ⟨by rw [h.1]; exact Bool.noConfusion, ih h⟩
    | block p n => exact ⟨by rw [h.2 p]; exact Bool.noConfusion, ih h⟩

/-- a key of one character -/
def letter (b : UInt8) (h : b ≠ 0) : CString := ⟨[b], fun h' => h (List.mem_singleton.mp h').symm⟩

def keyA : CString := letter 0x61 (by decide)
def keyB : CString := letter 0x62 (by decide)

/-- `{"a": -5, "b": {"a": [true, false], "b": [{"a": "a"}, {}]}}` -/
def sampleObject : Members :=
  .cons keyA (.int (-5)) <| .cons keyB (.object <|
    .cons keyA (.array true (.bools [true, false])) <|
    .cons keyB (.objects (.cons (.cons keyA (.textString keyA) .nil) (.cons .nil .nil))) .nil) .nil

theorem sample_round_trip : ∃ rep r,
    parse false 0 (view (encode cborEncoder sampleObject).items) dynamicPools = .ok rep r ∧ r.err = 0 ∧
      sampleObject.Got false rep := by
  refine (representation_round_trip_iff false cborEncoder sampleObject dynamicPools ?_ rfl
    (room_of_unbounded _ unbounded_dynamicPools)).mpr ?_
  · have hint : InRange (-5) := by decide
    refine ⟨by decide, hint, List.not_mem_nil, ⟨by decide, ?_, List.not_mem_nil, ⟨nofun, ?_⟩, trivial⟩,
      trivial⟩
    · exact List.cons_ne_nil _ _
    · exact ⟨⟨List.not_mem_nil, trivial, trivial⟩, trivial, trivial⟩
  · exact List.forall_mem_singleton.mpr ⟨trivial, by decide⟩

/-- `{"a": ["a", "a", …]}`, with strings that are added one after the other -/
def strings (n : Nat) : Members := .cons keyA (.array false (.texts (List.replicate n keyA))) .nil

theorem strings_valid {n : Nat} (hn : n ≠ 0) : (strings n).Valid true := by
  refine ⟨List.not_mem_nil, ⟨fun h => hn ((List.replicate_eq_nil_iff _).mp h), fun s hs => ?_⟩, trivial⟩
  rw [List.eq_of_mem_replicate hs]
  decide

theorem strings_cost (n : Nat) : cborEncoder.cost (strings n).payload = 2 * n + 6 := by
  have hitems : ∀ n, cborEncoder.cost
      (view (plain ((List.replicate n keyA).map fun s => textItem s.bytes))) = 2 * n := by
    intro n
    induction n with
    | zero => rfl
    | succ n ih =>
      show 2 + 0 + 0 + cborEncoder.cost
        (view (plain ((List.replicate n keyA).map fun s => textItem s.bytes))) = 2 * (n + 1)
      rw [ih]
      omega
  show 1 + (2 + 0 + 0 + (1 + cborEncoder.cost
    (view (plain ((List.replicate n keyA).map fun s => textItem s.bytes))) + 1 + 0)) + 1 + 0 = 2 * n + 6
  rw [hitems]
  omega

theorem strings_allocs {n : Nat} (hn : n ≠ 0) :
    Alloc.block .byte (n * stringArrayItemMaxLen true) ∈ (strings n).allocs true := by
  cases n with
  | zero => exact absurd rfl hn
  | succ n =>
    have hlen : ((List.replicate n keyA).map fun s => textItem s.bytes).length + 1 = n + 1 := by
      rw [List.length_map, List.length_replicate]
    refine List.mem_cons_of_mem _ (List.mem_cons_of_mem _ (List.mem_append_left _ ?_))
    show _ ∈ [Alloc.block .byte ((((List.replicate n keyA).map fun s => textItem s.bytes).length + 1) *
      stringArrayItemMaxLen true)]
    rw [hlen]
    exact List.mem_singleton.mpr rfl

/-- the block is refused, and nothing is returned -/
theorem strings_aborted {n : Nat} (hn : n ≠ 0) (hcost : 2 * n + 6 < 2^31)
    (hzero : n * stringArrayItemMaxLen true % 2^32 = 0) :
    (strings n).Valid true ∧ (encode cborEncoder (strings n)).err = 0 ∧
      Room ((strings n).allocs true) dynamicPools ∧
      ∀ rep r, parse true 0 (view (encode cborEncoder (strings n)).items) dynamicPools ≠ .ok rep r := by
  have hpayload : cborEncoder.cost (strings n).payload < 2^31 := by rwa [strings_cost]
  have hroom : Room ((strings n).allocs true) dynamicPools :=
    room_of_unbounded _ unbounded_dynamicPools
  have hitems : view (encode cborEncoder (strings n)).items = (strings n).payload := by
    rw [encode_eq]
    rfl
  refine ⟨strings_valid hn, (encode_err _).mpr (Nat.le_of_lt_succ hpayload), hroom, fun rep r hok => ?_⟩
  have hparsed := payload_parsed _ (strings_valid hn) hpayload hroom
  rw [← hitems, hok] at hparsed
  refine hparsed.2.2 _ (strings_allocs hn) ?_
  rw [Pool.width, Nat.one_mul]
  exact hzero

/-- 2^25 strings take a block of 2^32 bytes, and `(int)bytes_allocated` is 0 -/
theorem long_string_array_aborted : (strings (2^25)).Valid true ∧
    (encode cborEncoder (strings (2^25))).err = 0 ∧ Room ((strings (2^25)).allocs true) dynamicPools ∧
    ¬ ∃ rep r, parse true 0 (view (encode cborEncoder (strings (2^25))).items) dynamicPools = .ok rep r ∧
      r.err = 0 ∧ (strings (2^25)).Got true rep := by
  obtain ⟨hvalid, herr, hroom, hnot⟩ := strings_aborted (n := 2^25) (by decide) (by decide) (by decide)
  exact ⟨hvalid, herr, hroom, fun ⟨rep, r, hok, _⟩ => hnot rep r hok⟩

end Payload
