import Iotivity.Lib.Numeral
import Iotivity.Security.Cred
import Iotivity.Security.Mediation

/-!
# The value of a key in a query: `oc_ri_get_query_value`

A query is cut at `&`, and a segment with `=` in it gives a key and its value.  The tokenizer looks
for the next `=` across segments: segments without one are read as the beginning of the key of the
segment behind them, and a query is left at the last segment that has one.  A `Block` is a segment
with `=` and the run of segments without in front of it.

* `queryValueAt_eq`     the code compares the key with the joined keys of the blocks;
* `queryValue_iff`      it answers with the first segment that has the key iff the first block whose
                        own or joined key is the key has no run in front;
* `ocRiGetQueryValue_eq`   the text at that place is what the lookups of `Mediation.lean` use;
* `deleteAcl_named`, `deleteCred_named`   a DELETE that names an element does then not delete all.

A pointer into the query is a position; positions are below the length of a message, and an int.
-/

namespace Security

/-! ## the code -/

/-- the loop of `oc_ri_get_query_value` at position `pos` with `rest` before it; each round drops a
character.  The value that the tokenizer finds ends in front of the position behind the pair. -/
def queryValueAt (key : Bytes) : Nat → Nat → Bytes → Option (Nat × Nat)
  | 0, _, _ => none
  | fuel + 1, pos, rest =>
    if rest = [] then none
    else match ocRiGetQueryNthKeyValue rest 1 with
      | none => none
      | some (next, k, v) =>
        if lower k = lower key then some (pos + (next - 1 - v.length), v.length)
        else queryValueAt key fuel (pos + next) (rest.drop next)

/-- `oc_ri_get_query_value`, as `oc_get_query_value` calls it: the position and the length of the value -/
def ocGetQueryValue (query key : Bytes) : Option (Nat × Nat) :=
  queryValueAt key query.length 0 query

/-- `(int)strtoul(s, NULL, 10)` -/
def strtoulInt (s : Bytes) : Int := (BitVec.ofNat 32 (Numeral.strtoul s).1).toInt

/-- the number that a handler reads behind the pointer it gets for a parameter of the query; what
follows the value is no digit -/
def queryNumber (query key : Bytes) : Option Int :=
  (ocGetQueryValue query key).map fun place => strtoulInt ((query.drop place.1).take place.2)

/-- `delete_acl` with the query of the request -/
def deleteAclRequest (s : State) (device : Nat) (query : Bytes) : State :=
  deleteAcl s device (queryNumber query (ascii "aceid"))

/-- `delete_cred` on `/oic/sec/cred` with the query of the request -/
def deleteCredRequest (s : State) (device : Nat) (query : Bytes) : State :=
  deleteCred s device (queryNumber query (ascii "credid"))

/-! ## what is asked of it -/

/-- position and length of the value of the first segment `key=value` that has the key ignoring
case; `pos` is where the first segment begins -/
def lookup (key : Bytes) : Nat → List Bytes → Option (Nat × Nat)
  | _, [] => none
  | pos, s :: ss =>
    match memchr 61 s with
    | some i =>
      if lower (s.take i) = lower key then some (pos + i + 1, s.length - (i + 1))
      else lookup key (pos + s.length + 1) ss
    | none => lookup key (pos + s.length + 1) ss

/-! ## blocks -/

/-- a segment with `=`: its key, the place of its value, and the segments without `=` that stand
directly in front of it -/
structure Block where
  run : List Bytes
  key : Bytes
  pos : Nat
  len : Nat

/-- the key as the tokenizer reads it, from the beginning of the run on -/
def Block.joined (b : Block) : Bytes := (b.run.map (· ++ [38])).flatten ++ b.key

def Block.place (b : Block) : Nat × Nat := (b.pos, b.len)

/-- the blocks of segments, from a position on -/
def blocks : Nat → List Bytes → List Block
  | _, [] => []
  | pos, s :: ss =>
    match memchr 61 s with
    | some i => ⟨[], s.take i, pos + i + 1, s.length - (i + 1)⟩ :: blocks (pos + s.length + 1) ss
    | none =>
      match blocks (pos + s.length + 1) ss with
      | [] => []
      | b :: bs => { b with run := s :: b.run } :: bs

/-- the block has the key itself -/
def Block.hasKey (key : Bytes) (b : Block) : Bool := lower b.key = lower key

/-- the tokenizer reads the key -/
def Block.readsKey (key : Bytes) (b : Block) : Bool := lower b.joined = lower key

theorem lookup_eq (key : Bytes) (pos : Nat) (segs : List Bytes) :
    lookup key pos segs = ((blocks pos segs).find? (·.hasKey key)).map Block.place := by
  induction segs generalizing pos with
  | nil => rfl
  | cons s ss ih =>
    rw [lookup, blocks]
    cases memchr 61 s with
    | some i =>
      dsimp only
      rw [List.find?_cons, ih]
      by_cases hk : lower (s.take i) = lower key
      · simp [Block.hasKey, hk, Block.place]
      · simp [Block.hasKey, hk]
    | none =>
      dsimp only
      rw [ih]
      cases blocks (pos + s.length + 1) ss with
      | nil => rfl
      | cons b bs =>
        -- the run in front does not count here
        rw [List.find?_cons, List.find?_cons]
        show Option.map _ (match b.hasKey key with | true => some b | false => _) =
          Option.map _ (match b.hasKey key with | true => some { b with run := s :: b.run } | false => _)
        cases b.hasKey key <;> rfl

/-! ## the tokenizer on blocks -/

/-- a query is one segment, or begins with one -/
theorem segment_cases (q : Bytes) : 38 ∉ q ∨ ∃ s q', 38 ∉ s ∧ q = s ++ 38 :: q' := by
  by_cases h : (38 : UInt8) ∈ q
  · exact Or.inr (List.eq_append_cons_of_mem h |>.imp fun s ⟨q', hq, hs⟩ => ⟨q', hs, hq⟩)
  · exact Or.inl h

theorem memchr_eq_none {c : UInt8} {s : Bytes} : memchr c s = none ↔ c ∉ s := by
  unfold memchr
  rw [List.findIdx?_eq_none_iff]
  exact ⟨fun h hc => by simpa using h c hc, fun h x hx => by simpa using fun e : x = c => h (e ▸ hx)⟩

theorem memchr_lt {c : UInt8} {s : Bytes} {i : Nat} (h : memchr c s = some i) : i < s.length :=
  (List.findIdx?_eq_some_iff_findIdx_eq.mp h).1

theorem memchr_append (c : UInt8) (s t : Bytes) :
    memchr c (s ++ t) = (memchr c s).or ((memchr c t).map (· + s.length)) :=
  List.findIdx?_append

theorem memchr_append_self {c : UInt8} {s : Bytes} (h : c ∉ s) (t : Bytes) :
    memchr c (s ++ c :: t) = some s.length := by
  rw [memchr_append, memchr_eq_none.mpr h, Option.none_or]
  show Option.map _ (List.findIdx? _ (c :: t)) = _
  rw [List.findIdx?_cons, if_pos (decide_eq_true rfl), Option.map_some, Nat.zero_add]

theorem nthKeyValue_one (q : Bytes) :
    ocRiGetQueryNthKeyValue q 1 = (memchr 61 q).map fun i =>
      let rest := q.drop (i + 1)
      let value := (memchr 38 rest).elim rest rest.take
      (q.length - rest.length + value.length + 1, q.take i, value) := rfl

/-- a last segment -/
theorem nthKeyValue_last {q : Bytes} (h : 38 ∉ q) {i : Nat} (hi : memchr 61 q = some i) :
    ocRiGetQueryNthKeyValue q 1 = some (q.length + 1, q.take i, q.drop (i + 1)) := by
  have hlt := memchr_lt hi
  have hn : memchr 38 (q.drop (i + 1)) = none :=
    memchr_eq_none.mpr fun hm => h (List.mem_of_mem_drop hm)
  rw [nthKeyValue_one, hi, Option.map_some]
  simp only [hn, Option.elim_none, List.length_drop]
  congr 2
  omega

/-- a segment with `=` that others follow -/
theorem nthKeyValue_valued {s : Bytes} (h : 38 ∉ s) {i : Nat} (hi : memchr 61 s = some i)
    (q : Bytes) :
    ocRiGetQueryNthKeyValue (s ++ 38 :: q) 1 = some (s.length + 1, s.take i, s.drop (i + 1)) := by
  have hlt := memchr_lt hi
  have hd : (s ++ 38 :: q).drop (i + 1) = s.drop (i + 1) ++ 38 :: q :=
    List.drop_append_of_le_length (by omega)
  have hn : memchr 38 (s.drop (i + 1) ++ 38 :: q) = some (s.length - (i + 1)) := by
    rw [memchr_append_self fun hm => h (List.mem_of_mem_drop hm), List.length_drop]
  have ht : (s.drop (i + 1) ++ 38 :: q).take (s.length - (i + 1)) = s.drop (i + 1) := by
    rw [List.take_append_of_le_length (by rw [List.length_drop])]
    exact List.take_of_length_le (by rw [List.length_drop])
  rw [nthKeyValue_one, memchr_append, hi, Option.some_or, Option.map_some]
  simp only [hd, hn, Option.elim_some, ht, List.take_append_of_le_length (Nat.le_of_lt hlt),
    List.length_append, List.length_drop, List.length_cons]
  congr 2
  omega

/-- a segment without `=` becomes part of the key behind it -/
theorem nthKeyValue_valueless {s : Bytes} (h : memchr 61 s = none) (q : Bytes) :
    ocRiGetQueryNthKeyValue (s ++ 38 :: q) 1 = (ocRiGetQueryNthKeyValue q 1).map fun x =>
      (x.1 + (s.length + 1), s ++ 38 :: x.2.1, x.2.2) := by
  have hm : memchr 61 (s ++ 38 :: q) = (memchr 61 q).map (· + (s.length + 1)) := by
    rw [memchr_append, h, Option.none_or]
    show Option.map _ (List.findIdx? _ (38 :: q)) = _
    rw [List.findIdx?_cons, if_neg (by decide), Option.map_map]
    refine congrArg (fun f => Option.map f (memchr 61 q)) (funext fun i => ?_)
    exact Nat.add_right_comm i 1 s.length
  rw [nthKeyValue_one, nthKeyValue_one, hm, Option.map_map, Option.map_map]
  cases hq : memchr 61 q with
  | none => rfl
  | some i =>
    have hlt := memchr_lt hq
    have hd : (s ++ 38 :: q).drop (i + (s.length + 1) + 1) = q.drop (i + 1) := by
      rw [List.drop_append, List.drop_of_length_le (by omega), List.nil_append,
        show i + (s.length + 1) + 1 - s.length = i + 1 + 1 by omega, List.drop_succ_cons]
    have ht : (s ++ 38 :: q).take (i + (s.length + 1)) = s ++ 38 :: q.take i := by
      rw [List.take_append, List.take_of_length_le (by omega),
        show i + (s.length + 1) - s.length = i + 1 by omega, List.take_succ_cons]
    simp only [Option.map_some, Function.comp_apply, hd, ht, List.length_append, List.length_cons]
    congr 2
    rw [List.length_drop]
    omega

/-- the blocks of a query -/
abbrev queryBlocks (pos : Nat) (q : Bytes) : List Block := blocks pos (q.splitOn 38)

/-- what one call of the tokenizer does with the blocks before it -/
theorem nthKeyValue_blocks (q : Bytes) (pos : Nat) :
    match queryBlocks pos q with
    | [] => ocRiGetQueryNthKeyValue q 1 = none
    | b :: bs => ∃ next v, ocRiGetQueryNthKeyValue q 1 = some (next, b.joined, v) ∧
        v.length = b.len ∧ pos + (next - 1 - v.length) = b.pos ∧ v.length < next ∧
        queryBlocks (pos + next) (q.drop next) = bs := by
  induction hl : q.length using Nat.strong_induction_on generalizing q pos with
  | _ n ih =>
  rcases segment_cases q with h | ⟨s, q', h, rfl⟩
  · rw [queryBlocks, List.splitOn_eq_singleton h, blocks]
    cases hi : memchr 61 q with
    | none => rw [blocks, nthKeyValue_one, hi]; rfl
    | some i =>
      have hlt := memchr_lt hi
      refine ⟨_, _, nthKeyValue_last h hi, List.length_drop, ?_, by rw [List.length_drop]; omega, ?_⟩
      · rw [List.length_drop]
        show pos + _ = pos + i + 1
        omega
      · rw [List.drop_of_length_le (Nat.le_succ _)]
        rfl
  · rw [queryBlocks, List.splitOn_append_cons_self_of_not_mem h, blocks]
    cases hi : memchr 61 s with
    | some i =>
      have hlt := memchr_lt hi
      refine ⟨_, _, nthKeyValue_valued h hi q', List.length_drop, ?_, by rw [List.length_drop]; omega,
        ?_⟩
      · rw [List.length_drop]
        show pos + _ = pos + i + 1
        omega
      · rw [show (s ++ 38 :: q').drop (s.length + 1) = q' by simp]
        rfl
    | none =>
      have hq := ih q'.length (by rw [← hl, List.length_append, List.length_cons]; omega) q'
        (pos + s.length + 1) rfl
      rw [nthKeyValue_valueless hi]
      dsimp only
      cases hb : queryBlocks (pos + s.length + 1) q' with
      | nil =>
        rw [hb] at hq
        rw [show blocks (pos + s.length + 1) (q'.splitOn 38) = [] from hb]
        rw [hq]
        rfl
      | cons b bs =>
        rw [hb] at hq
        obtain ⟨next, v, hn, hv, hp, hlt, hbs⟩ := hq
        rw [show blocks (pos + s.length + 1) (q'.splitOn 38) = b :: bs from hb]
        refine ⟨next + (s.length + 1), v, ?_, hv, ?_, by omega, ?_⟩
        · rw [hn]
          simp [Block.joined]
        · show pos + _ = b.pos
          rw [← hp]
          omega
        · rw [← hbs, List.drop_append, List.drop_of_length_le (by omega), List.nil_append,
            show next + (s.length + 1) - s.length = next + 1 by omega, List.drop_succ_cons]
          congr 1
          omega

/-! ## the lookup -/

theorem queryValueAt_eq (key : Bytes) (fuel pos : Nat) (q : Bytes) (hf : q.length ≤ fuel) :
    queryValueAt key fuel pos q = ((queryBlocks pos q).find? (·.readsKey key)).map Block.place := by
  induction fuel generalizing pos q with
  | zero =>
    rw [List.eq_nil_of_length_eq_zero (Nat.le_zero.mp hf)]
    rfl
  | succ fuel ih =>
    rw [queryValueAt]
    by_cases hq : q = []
    · rw [hq, if_pos rfl]
      rfl
    · rw [if_neg hq]
      have hn := nthKeyValue_blocks q pos
      cases hb : queryBlocks pos q with
      | nil =>
        rw [hb] at hn
        rw [hn]
        rfl
      | cons b bs =>
        rw [hb] at hn
        obtain ⟨next, v, hn, hv, hp, hlt, hbs⟩ := hn
        rw [hn, List.find?_cons]
        by_cases hk : lower b.joined = lower key
        · simp [Block.readsKey, hk, Block.place, ← hp, hv]
        · have hlen : 0 < q.length := List.length_pos_of_ne_nil hq
          have hrest : (q.drop next).length ≤ fuel := by rw [List.length_drop]; omega
          simp only [Block.readsKey, hk, if_false, decide_false, ih (pos + next) _ hrest, hbs]

theorem lower_length (s : Bytes) : (lower s).length = s.length := List.length_map _

/-- a run in front of a key makes it longer -/
theorem joined_ne {b : Block} (h : b.run ≠ []) (key : Bytes) :
    ¬ (lower b.key = lower key ∧ lower b.joined = lower key) := by
  rintro ⟨h₁, h₂⟩
  have hl := congrArg List.length (h₁.trans h₂.symm)
  obtain ⟨s, ss, hr⟩ := List.exists_cons_of_ne_nil h
  rw [lower_length, lower_length, Block.joined, hr] at hl
  simp at hl
  omega

theorem joined_of_run_nil {b : Block} (h : b.run = []) : b.joined = b.key := by
  rw [Block.joined, h]
  rfl

/-- values stand in order behind the position that the segments begin at -/
theorem blocks_sorted (pos : Nat) (segs : List Bytes) :
    (∀ b ∈ blocks pos segs, pos < b.pos) ∧ (blocks pos segs).Pairwise (·.pos < ·.pos) := by
  induction segs generalizing pos with
  | nil => exact ⟨fun b hb => (nomatch hb), List.Pairwise.nil⟩
  | cons s ss ih =>
    obtain ⟨hlt, hs⟩ := ih (pos + s.length + 1)
    rw [blocks]
    cases hi : memchr 61 s with
    | some i =>
      have hi := memchr_lt hi
      refine ⟨List.forall_mem_cons.mpr ⟨?_, fun b hb => ?_⟩, hs.cons fun b hb => ?_⟩
      · show pos < pos + i + 1
        omega
      · exact Nat.lt_trans (by omega) (hlt b hb)
      · have h : pos + s.length + 1 < b.pos := hlt b hb
        show pos + i + 1 < b.pos
        omega
    | none =>
      cases hb : blocks (pos + s.length + 1) ss with
      | nil => exact ⟨fun b hb => (nomatch hb), List.Pairwise.nil⟩
      | cons b bs =>
        rw [hb] at hlt hs
        refine ⟨fun c hc => ?_, List.pairwise_cons.mpr (List.pairwise_cons.mp hs)⟩
        rcases List.mem_cons.mp hc with rfl | hc
        · exact Nat.lt_trans (by omega) (hlt b List.mem_cons_self)
        · exact Nat.lt_trans (by omega) (hlt c (List.mem_cons_of_mem b hc))

/-- a block is not found by its place among those behind it -/
theorem find_place_ne {b : Block} {bs : List Block} (h : ∀ c ∈ bs, b.pos < c.pos)
    (p : Block → Bool) : (bs.find? p).map Block.place ≠ some b.place := by
  intro he
  obtain ⟨c, hc, hp⟩ := Option.map_eq_some_iff.mp he
  have hlt := h c (List.mem_of_find?_eq_some hc)
  have hpos : c.pos = b.pos := congrArg Prod.fst hp
  omega

/-- the first block whose own or joined key is the key has no run in front of it -/
def Unmerged (key : Bytes) (bs : List Block) : Prop :=
  ∀ b, bs.find? (fun b => b.hasKey key || b.readsKey key) = some b → b.run = []

theorem find_place_iff (key : Bytes) {bs : List Block} (h : bs.Pairwise (·.pos < ·.pos)) :
    (bs.find? (·.readsKey key)).map Block.place = (bs.find? (·.hasKey key)).map Block.place ↔
      Unmerged key bs := by
  unfold Unmerged
  induction bs with
  | nil => simp
  | cons b bs ih =>
    obtain ⟨hlt, hs⟩ := List.pairwise_cons.mp h
    rw [List.find?_cons, List.find?_cons, List.find?_cons]
    cases hr : b.readsKey key <;> cases hk : b.hasKey key
    · exact ih hs
    · refine iff_of_false (find_place_ne hlt _) fun hu => ?_
      have he : b.readsKey key = b.hasKey key := by
        rw [Block.readsKey, joined_of_run_nil (hu b rfl), Block.hasKey]
      rw [hr, hk] at he
      cases he
    · refine iff_of_false (fun he => find_place_ne hlt _ he.symm) fun hu => ?_
      have he : b.readsKey key = b.hasKey key := by
        rw [Block.readsKey, joined_of_run_nil (hu b rfl), Block.hasKey]
      rw [hr, hk] at he
      cases he
    · refine iff_of_true rfl fun c hc => ?_
      cases hc
      by_contra hrun
      exact joined_ne hrun key ⟨of_decide_eq_true hk, of_decide_eq_true hr⟩

theorem ocGetQueryValue_eq (query key : Bytes) :
    ocGetQueryValue query key = ((queryBlocks 0 query).find? (·.readsKey key)).map Block.place :=
  queryValueAt_eq key _ 0 query (Nat.le_refl _)

theorem queryValue_iff (query key : Bytes) :
    ocGetQueryValue query key = lookup key 0 (query.splitOn 38) ↔
      ∀ b, (blocks 0 (query.splitOn 38)).find? (fun b => b.hasKey key || b.readsKey key) = some b →
        b.run = [] := by
  rw [ocGetQueryValue_eq, lookup_eq]
  exact find_place_iff key (blocks_sorted 0 _).2

/-- the value of a pair as text -/
theorem nthKeyValue_value {q k v : Bytes} {next : Nat}
    (h : ocRiGetQueryNthKeyValue q 1 = some (next, k, v)) :
    v = (q.drop (next - 1 - v.length)).take v.length := by
  rw [nthKeyValue_one] at h
  obtain ⟨i, hi, he⟩ := Option.map_eq_some_iff.mp h
  have hlt := memchr_lt hi
  simp only [Prod.mk.injEq] at he
  obtain ⟨rfl, -, he⟩ := he
  have hp : v <+: q.drop (i + 1) := by
    rw [← he]
    cases memchr 38 (q.drop (i + 1)) with
    | none => exact List.prefix_rfl
    | some j => exact List.take_prefix _ _
  have hn : q.length - (q.drop (i + 1)).length + v.length + 1 - 1 - v.length = i + 1 := by
    rw [List.length_drop]
    omega
  rw [he, hn]
  exact List.prefix_iff_eq_take.mp hp

/-- the text of the value that `ocRiGetQueryValue` gives is the one at that place -/
theorem ocRiGetQueryValue_eq (key query : Bytes) (fuel pos : Nat) :
    ocRiGetQueryValue key fuel (query.drop pos) =
      (queryValueAt key fuel pos (query.drop pos)).map fun place =>
        (query.drop place.1).take place.2 := by
  induction fuel generalizing pos with
  | zero => rfl
  | succ fuel ih =>
    rw [ocRiGetQueryValue, queryValueAt]
    split
    · rfl
    · cases hn : ocRiGetQueryNthKeyValue (query.drop pos) 1 with
      | none => rfl
      | some x =>
        obtain ⟨next, k, v⟩ := x
        dsimp only
        split
        · rw [Option.map_some, ← List.drop_drop]
          exact congrArg some (nthKeyValue_value hn)
        · rw [List.drop_drop]
          exact ih (pos + next)

/-! ## a DELETE on acl2 or cred -/

/-- a parameter that the query has, and that no segment without `=` hides, is found -/
theorem queryNumber_named {query key : Bytes} (h : Unmerged key (queryBlocks 0 query))
    (hl : lookup key 0 (query.splitOn 38) ≠ none) : ∃ id, queryNumber query key = some id := by
  rw [← (queryValue_iff query key).mpr h] at hl
  obtain ⟨place, hp⟩ := Option.ne_none_iff_exists'.mp hl
  exact ⟨_, by rw [queryNumber, hp, Option.map_some]⟩

theorem length_le_eraseP (p : α → Bool) (l : List α) : l.length ≤ (l.eraseP p).length + 1 := by
  rw [List.length_eraseP]
  split <;> omega

/-- a DELETE that names an ACE takes at most one -/
theorem deleteAcl_named (s : State) (device : Nat) {query : Bytes}
    (h : Unmerged (ascii "aceid") (queryBlocks 0 query))
    (hl : lookup (ascii "aceid") 0 (query.splitOn 38) ≠ none) :
    (s.device device).acl.subjects.length ≤
      ((deleteAclRequest s device query).device device).acl.subjects.length + 1 := by
  obtain ⟨id, hid⟩ := queryNumber_named h hl
  rw [deleteAclRequest, hid, deleteAcl]
  dsimp only
  split
  · exact Nat.le_succ _
  · split
    · exact Nat.le_succ _
    · rw [State.put_device]
      exact length_le_eraseP _ _

/-- a DELETE that names a credential takes at most one -/
theorem deleteCred_named (s : State) (device : Nat) {query : Bytes}
    (h : Unmerged (ascii "credid") (queryBlocks 0 query))
    (hl : lookup (ascii "credid") 0 (query.splitOn 38) ≠ none) :
    (s.device device).creds.creds.length ≤
      ((deleteCredRequest s device query).device device).creds.creds.length + 1 := by
  obtain ⟨id, hid⟩ := queryNumber_named h hl
  rw [deleteCredRequest, hid, deleteCred]
  split
  · exact Nat.le_succ _
  · split
    · exact Nat.le_succ _
    · rw [State.withCreds, State.put_device]
      exact length_le_eraseP _ _

/-- a segment without `=` in front of the id: it is not found, and the whole ACL goes -/
theorem valueless_hides_aceid :
    let query := ascii "x&aceid=1"
    let ace (id : Int) : Ace := ⟨[], .conn .authCrypt, id, 6⟩
    let s := State.zero.put 0 { Device.zero with acl := ⟨[ace 1, ace 2], Uuid.nil⟩ }
    lookup (ascii "aceid") 0 (query.splitOn 38) = some (8, 1) ∧
      ocGetQueryValue query (ascii "aceid") = none ∧
      ((deleteAclRequest s 0 query).device 0).acl.subjects = [] := by
  decide

end Security
