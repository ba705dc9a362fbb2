import Iotivity.Engine.Observe
import Iotivity.Lib.Chain
import Mathlib.Data.Fintype.Sum

/-!
# Observers with static pools: `oc_memb.c`, `oc_mmem.c`

Without dynamic allocation an observer lives in one of `max` blocks, and its URL is a handle inside
of the block: a link of `bytes_list`, which leads through all strings of the program.  A block that
is given back while its handle is linked takes the list along.

* `Mmem`                  `bytes_list` with the sizes of its strings; `ocMmemAlloc`, `ocMmemFree`;
* `Blocks`                the observers with the blocks that they live in;
* `PoolOp`                what happens to the observers, and strings of the rest of the program;
* `strings_linked_run`    the list stays whole as long as no observer is replaced.
-/

namespace Coap
open Intrusive Function

/-! ## strings -/

/-- a string handle: the URL of an observer by its block, or one of the rest of the program -/
inductive Handle (max m : Nat) where
  | url (i : Fin max)
  | other (j : Fin m)
deriving DecidableEq

/-- a call that does not return: a failed assertion, or a walk along a cycle -/
inductive Stop where
  | abort | hang
deriving DecidableEq

/-- `bytes_list`, the sizes in the handles, and `avail_bytes` -/
structure Mmem (max m : Nat) where
  chain : Chain (Handle max m)
  size : Handle max m → Nat
  avail : Nat

section
variable {max m : Nat}

/-- the result of an operation on a list, with the sizes and the count of the pool -/
def Mmem.linked (size : Handle max m → Nat) (avail : Nat) :
    Option (Chain (Handle max m)) → Except Stop (Mmem max m)
  | none => .error .hang
  | some chain => .ok ⟨chain, size, avail⟩

/-- `oc_malloc` on the byte pool: `_oc_mmem_alloc` has to succeed -/
def ocMmemAlloc (h : Handle max m) (size : Nat) (s : Mmem max m) : Except Stop (Mmem max m) :=
  if s.avail < size then .error .abort
  else Mmem.linked (update s.size h size) (s.avail - size) (s.chain.add (max + m) h)

/-- the loop that moves the strings behind a handle comes to an end -/
def movesUp (h : Handle max m) (s : Mmem max m) : Bool :=
  match s.chain.next h with
  | none => true
  | some n => (walk s.chain.next (max + m) n).isSome

/-- `oc_free` on the byte pool: `_oc_mmem_free`, and the handle is cleared -/
def ocMmemFree (h : Handle max m) (s : Mmem max m) : Except Stop (Mmem max m) :=
  if movesUp h s then
    Mmem.linked (update s.size h 0) (s.avail + s.size h)
      ((s.chain.remove (max + m) h).map (Chain.clear h))
  else .error .hang

def ocNewString (h : Handle max m) (str : List UInt8) : Mmem max m → Except Stop (Mmem max m) :=
  ocMmemAlloc h (str.length + 1)

def ocFreeString (h : Handle max m) : Mmem max m → Except Stop (Mmem max m) := ocMmemFree h

/-! ## blocks -/

/-- the observers in their blocks, the blocks in use, the byte pool, and the handles that hold the
strings of the rest of the program -/
structure Blocks (max m : Nat) where
  list : List (Fin max × Observer)
  used : Fin max → Bool
  mmem : Mmem max m
  others : List (Fin m)
  observeCounter : UInt32

/-- `oc_memb_alloc(&observers_memb)`: the first free block, which is cleared -/
def ocMembAlloc (s : Blocks max m) : Option (Fin max × Blocks max m) :=
  match (List.finRange max).find? fun i => !s.used i with
  | none => none
  | some i =>
    some (i, { s with
      used := update s.used i true
      mmem := { s.mmem with
        chain := s.mmem.chain.clear (.url i)
        size := update s.mmem.size (.url i) 0 } })

/-- the observer in a block -/
def inBlock (i : Fin max) (o : Fin max × Observer) : Bool := o.1 == i

/-- an observer is taken out of `observers_list`, and its block given back -/
def giveBack (i : Fin max) (s : Blocks max m) : Blocks max m :=
  { s with
    list := s.list.eraseP (inBlock i)
    used := update s.used i false }

/-- `coap_remove_observer_handle_by_uri` -/
def removeHandleByUri (endpoint : Endpoint) (path : List UInt8) (s : Blocks max m) : Blocks max m :=
  match s.list.find? fun o => o.2.isAt endpoint path with
  | none => s
  | some o => giveBack o.1 s

/-- `coap_remove_observer`, for the observer in a block -/
def coapRemoveObserver (i : Fin max) (s : Blocks max m) : Except Stop (Blocks max m) :=
  match ocFreeString (.url i) s.mmem with
  | .error e => .error e
  | .ok mmem => .ok (giveBack i { s with mmem })

/-- the loops that end at the first observer found -/
def removeFirstBlock (p : Observer → Bool) (s : Blocks max m) : Except Stop (Blocks max m) :=
  match s.list.find? fun o => p o.2 with
  | none => .ok s
  | some o => coapRemoveObserver o.1 s

/-- the observers in some blocks, one after the other -/
def removeBlocks : List (Fin max × Observer) → Blocks max m → Except Stop (Blocks max m)
  | [], s => .ok s
  | o :: l, s =>
    match coapRemoveObserver o.1 s with
    | .error e => .error e
    | .ok s => removeBlocks l s

/-- the loops that go through the whole list -/
def removeAllBlocks (p : Observer → Bool) (s : Blocks max m) : Except Stop (Blocks max m) :=
  removeBlocks (s.list.filter fun o => p o.2) s

/-- `add_observer`; the pool decides, not `x.granted` -/
def addObserverBlock (x : Registration) (s : Blocks max m) : Except Stop (Blocks max m) :=
  match ocMembAlloc (removeHandleByUri x.endpoint x.path s) with
  | none => .ok (removeHandleByUri x.endpoint x.path s)
  | some (i, s) =>
    match ocNewString (.url i) x.path s.mmem with
    | .error e => .error e
    | .ok mmem => .ok { s with mmem, list := s.list ++ [(i, x.observer s.observeCounter)] }

/-- an observer in its block, after a notification -/
def sentBlock (mid : UInt16) (counted : Bool) (o : Fin max × Observer) : Fin max × Observer :=
  (o.1, o.2.sent mid counted)

/-- a notification to the observer at a place of the list -/
def notifiedBlock (n : Nat) (mid : UInt16) (counted : Bool) (s : Blocks max m) : Blocks max m :=
  { s with
    list := s.list.modify n (sentBlock mid counted)
    observeCounter := if counted then s.observeCounter + 1 else s.observeCounter }

/-! ## runs -/

/-- operations on the observers, and strings of the rest of the program -/
inductive PoolOp (m : Nat) where
  | observe (op : ObserveOp)
  | newString (j : Fin m) (str : List UInt8)
  | freeString (j : Fin m)

/-- a string of the rest of the program is made in a handle that holds none -/
def newOther (j : Fin m) (str : List UInt8) (s : Blocks max m) : Except Stop (Blocks max m) :=
  if j ∈ s.others then .ok s
  else
    match ocNewString (.other j) str s.mmem with
    | .error e => .error e
    | .ok mmem => .ok { s with mmem, others := s.others ++ [j] }

/-- a string of the rest of the program is freed -/
def freeOther (j : Fin m) (s : Blocks max m) : Except Stop (Blocks max m) :=
  if j ∈ s.others then
    match ocFreeString (.other j) s.mmem with
    | .error e => .error e
    | .ok mmem => .ok { s with mmem, others := s.others.erase j }
  else .ok s

def PoolOp.apply (uri : Nat → List UInt8) (s : Blocks max m) :
    PoolOp m → Except Stop (Blocks max m)
  | .observe (.register x) => addObserverBlock x s
  | .observe (.removeByUri endpoint path) => .ok (removeHandleByUri endpoint path s)
  | .observe (.removeByClient endpoint) =>
    removeAllBlocks (fun o => ocEndpointCompare o.endpoint endpoint) s
  | .observe (.removeByToken endpoint token) => removeFirstBlock (Observer.hasToken endpoint token) s
  | .observe (.removeByMid endpoint mid) => removeFirstBlock (Observer.hasMid endpoint mid) s
  | .observe (.removeByResource resource) => removeAllBlocks (Observer.isOf uri resource) s
  | .observe (.notify n mid counted) => .ok (notifiedBlock n mid counted s)
  | .newString j str => newOther j str s
  | .freeString j => freeOther j s

def Blocks.run (uri : Nat → List UInt8) (s : Blocks max m) :
    List (PoolOp m) → Except Stop (Blocks max m)
  | [] => .ok s
  | op :: ops =>
    match op.apply uri s with
    | .error e => .error e
    | .ok s => s.run uri ops

/-- start-up, with a byte pool of some size -/
def Blocks.init (max m bytes : Nat) : Blocks max m :=
  ⟨[], fun _ => false, ⟨⟨none, fun _ => none⟩, fun _ => 0, bytes⟩, [], 3⟩

/-! ## the list of strings -/

/-- the strings that are in use: the URLs of the observers, and those of the rest of the program -/
def Blocks.handles (s : Blocks max m) : List (Handle max m) :=
  s.list.map (fun o => .url o.1) ++ s.others.map .other

/-- `bytes_list` comes to an end, and a URL on it is that of an observer whose block is in use -/
def Pooled (s : Blocks max m) : Prop :=
  ∃ l, s.mmem.chain.Holds l ∧
    ∀ i, Handle.url i ∈ l → (∃ o, (i, o) ∈ s.list) ∧ s.used i = true

/-- the strings in use are those on the list, and observers have blocks of their own -/
structure Tidy (s : Blocks max m) : Prop where
  strings : ∃ l, s.mmem.chain.Holds l ∧ ∀ h, h ∈ l ↔ h ∈ s.handles
  nodup : s.handles.Nodup
  used : ∀ i, Handle.url i ∈ s.handles → s.used i = true

/-- a call that returns leaves things tidy, and one that does not return is an abort -/
def Tidied : Except Stop (Blocks max m) → Prop
  | .ok s => Tidy s
  | .error e => e = .abort

section
variable {s : Blocks max m} {t : Mmem max m} {l : List (Handle max m)} {h : Handle max m}

theorem url_mem_handles {i : Fin max} : Handle.url i ∈ s.handles ↔ ∃ o, (i, o) ∈ s.list := by
  simp [Blocks.handles]

theorem Tidy.pooled (hs : Tidy s) : Pooled s := by
  obtain ⟨l, hl, hm⟩ := hs.strings
  refine ⟨l, hl, ?_⟩
  intro i hi
  have hi' := (hm _).mp hi
  exact ⟨url_mem_handles.mp hi', hs.used i hi'⟩

/-- there are as many handles as there is fuel -/
def Handle.toSum : Handle max m → Fin max ⊕ Fin m
  | .url i => .inl i
  | .other j => .inr j

theorem length_le_handles (hl : t.chain.Holds l) : l.length ≤ max + m := by
  have hinj : Injective (Handle.toSum : Handle max m → Fin max ⊕ Fin m) := by
    intro a b he
    cases a <;> cases b <;> cases he <;> rfl
  have := (hl.nodup.map hinj).length_le_card
  rwa [List.length_map, Fintype.card_sum, Fintype.card_fin, Fintype.card_fin] at this

theorem alloc_holds (hl : t.chain.Holds l) (hh : h ∉ l) (size : Nat) :
    ocMmemAlloc h size t = .error .abort ∨
      ∃ t', ocMmemAlloc h size t = .ok t' ∧ t'.chain.Holds (l ++ [h]) := by
  unfold ocMmemAlloc
  split
  · exact Or.inl rfl
  · obtain ⟨c, hc, hh'⟩ := Chain.add_holds hl hh (length_le_handles hl)
    rw [hc]
    exact Or.inr ⟨_, rfl, hh'⟩

theorem free_holds (hl : t.chain.Holds l) (hh : h ∈ l) :
    ∃ t', ocMmemFree h t = .ok t' ∧ t'.chain.Holds (l.erase h) := by
  have hf := length_le_handles hl
  have hmove : movesUp h t = true := by
    unfold movesUp
    cases hn : t.chain.next h with
    | none => rfl
    | some n =>
      obtain ⟨z, hz⟩ := Chain.walk_holds hl (hl.path.next_mem hh hn) hf
      exact Option.isSome_iff_exists.mpr ⟨z, hz⟩
  obtain ⟨c, hc, hh'⟩ := Chain.remove_holds (a := h) hl hf
  unfold ocMmemFree
  rw [if_pos hmove, hc]
  exact ⟨_, rfl, hh'.clear hl.nodup.not_mem_erase⟩

/-! ## each operation keeps the list -/

/-- a string in use is freed -/
theorem Tidy.free (hs : Tidy s) (hh : h ∈ s.handles) :
    ∃ t, ocMmemFree h s.mmem = .ok t ∧ ∀ s' : Blocks max m, s'.mmem = t →
      s'.handles = s.handles.erase h →
      (∀ i, Handle.url i ∈ s'.handles → s'.used i = true) → Tidy s' := by
  obtain ⟨l, hl, hm⟩ := hs.strings
  obtain ⟨t, ht, hl'⟩ := free_holds hl ((hm h).mpr hh)
  refine ⟨t, ht, ?_⟩
  intro s' hst hse hu
  refine ⟨⟨l.erase h, hst ▸ hl', ?_⟩, ?_, hu⟩
  · intro k
    rw [hse, hl.nodup.mem_erase_iff, hs.nodup.mem_erase_iff, hm]
  · rw [hse]
    exact hs.nodup.erase h

/-- a string is made in a handle that holds none -/
theorem Tidy.alloc (hs : Tidy s) (hh : h ∉ s.handles) (size : Nat) :
    ocMmemAlloc h size s.mmem = .error .abort ∨
      ∃ t, ocMmemAlloc h size s.mmem = .ok t ∧ ∀ s' : Blocks max m, s'.mmem = t →
        s'.handles.Perm (h :: s.handles) →
        (∀ i, Handle.url i ∈ s'.handles → s'.used i = true) → Tidy s' := by
  obtain ⟨l, hl, hm⟩ := hs.strings
  refine (alloc_holds hl (mt (hm h).mp hh) size).imp_right ?_
  rintro ⟨t, ht, hl'⟩
  refine ⟨t, ht, ?_⟩
  intro s' hst hsp hu
  refine ⟨⟨l ++ [h], hst ▸ hl', ?_⟩, ?_, hu⟩
  · intro k
    rw [hsp.mem_iff, List.mem_append, List.mem_singleton, List.mem_cons, hm, or_comm]
  · exact hsp.nodup_iff.mpr (List.nodup_cons.mpr ⟨hh, hs.nodup⟩)

theorem handles_giveBack {i : Fin max} (hi : Handle.url i ∈ s.handles) (t : Mmem max m) :
    (giveBack i { s with mmem := t }).handles = s.handles.erase (.url i) := by
  have hmem : Handle.url i ∈ s.list.map fun o => (Handle.url o.1 : Handle max m) := by
    obtain ⟨o, ho⟩ := url_mem_handles.mp hi
    exact List.mem_map_of_mem (f := fun o => (Handle.url o.1 : Handle max m)) ho
  have hp : inBlock i =
      (fun x => (Handle.url i : Handle max m) == x) ∘ fun o => Handle.url o.1 := by
    funext o
    by_cases he : o.1 = i
    · simp [inBlock, he]
    · simp [inBlock, he, Ne.symm he]
  unfold Blocks.handles
  rw [List.erase_append_left _ hmem, List.erase_eq_eraseP, List.eraseP_map, ← hp]
  rfl

theorem Tidy.removeObserver (hs : Tidy s) {i : Fin max} (hi : Handle.url i ∈ s.handles) :
    ∃ s', coapRemoveObserver i s = .ok s' ∧ Tidy s' ∧ s'.handles = s.handles.erase (.url i) := by
  obtain ⟨t, ht, hk⟩ := hs.free hi
  have hh := handles_giveBack hi t
  refine ⟨giveBack i { s with mmem := t }, ?_, hk _ rfl hh ?_, hh⟩
  · unfold coapRemoveObserver ocFreeString
    rw [ht]
  · intro k hku
    rw [hh, hs.nodup.mem_erase_iff] at hku
    have hki : k ≠ i := fun he => hku.1 (congrArg Handle.url he)
    show update s.used i false k = true
    rw [update_of_ne hki]
    exact hs.used k hku.2

theorem Tidy.removeFirst (hs : Tidy s) (p : Observer → Bool) : Tidied (removeFirstBlock p s) := by
  unfold removeFirstBlock
  cases hf : s.list.find? fun o => p o.2 with
  | none => exact hs
  | some o =>
    have hi : Handle.url o.1 ∈ s.handles :=
      url_mem_handles.mpr ⟨o.2, List.mem_of_find?_eq_some hf⟩
    obtain ⟨s', he, ht, _⟩ := hs.removeObserver hi
    dsimp only
    rw [he]
    exact ht

theorem Tidy.removeBlocks (hs : Tidy s) {l : List (Fin max × Observer)}
    (hn : (l.map Prod.fst).Nodup) (hl : ∀ o ∈ l, Handle.url o.1 ∈ s.handles) :
    Tidied (removeBlocks l s) := by
  induction l generalizing s with
  | nil => exact hs
  | cons o l ih =>
    obtain ⟨ho, hn⟩ := List.nodup_cons.mp hn
    obtain ⟨s', he, ht, hh⟩ := hs.removeObserver (hl o List.mem_cons_self)
    unfold Coap.removeBlocks
    rw [he]
    apply ih ht hn
    -- the blocks that are still to come are others
    intro a ha
    rw [hh, hs.nodup.mem_erase_iff]
    refine ⟨?_, hl a (List.mem_cons_of_mem o ha)⟩
    intro hc
    have he : a.1 = o.1 := Handle.url.inj hc
    exact ho (he ▸ List.mem_map_of_mem ha)

theorem Tidy.removeAll (hs : Tidy s) (p : Observer → Bool) : Tidied (removeAllBlocks p s) := by
  apply hs.removeBlocks
  · have hn : (s.list.map fun o => (Handle.url o.1 : Handle max m)).Nodup :=
      (List.nodup_append.mp hs.nodup).1
    have hn' : (s.list.map Prod.fst).Nodup := by
      apply List.Nodup.of_map (fun i => (Handle.url i : Handle max m))
      rwa [List.map_map]
    exact hn'.sublist (List.filter_sublist.map _)
  · intro o ho
    exact url_mem_handles.mpr ⟨o.2, (List.mem_filter.mp ho).1⟩

/-- a block is found: it belongs to no observer -/
theorem Tidy.membAlloc (hs : Tidy s) {i : Fin max} {s' : Blocks max m}
    (h : ocMembAlloc s = some (i, s')) :
    Tidy s' ∧ s'.list = s.list ∧ s'.others = s.others ∧ Handle.url i ∉ s'.handles ∧
      s'.used i = true := by
  unfold ocMembAlloc at h
  split at h
  · cases h
  · next j hf =>
    cases h
    have hfree : Handle.url i ∉ s.handles := by
      intro hi
      have hu := List.find?_some hf
      rw [hs.used i hi] at hu
      cases hu
    obtain ⟨l, hl, hm⟩ := hs.strings
    refine ⟨⟨⟨l, hl.clear (mt (hm _).mp hfree), hm⟩, hs.nodup, ?_⟩, rfl, rfl, hfree,
      update_self _ _ _⟩
    intro k hk
    show update s.used i true k = true
    by_cases hki : k = i
    · rw [hki, update_self]
    · rw [update_of_ne hki]
      exact hs.used k hk

/-- nobody is replaced -/
theorem removeHandleByUri_fresh {endpoint : Endpoint} {path : List UInt8}
    (h : ∀ o ∈ s.list, o.2.isAt endpoint path = false) : removeHandleByUri endpoint path s = s := by
  have hf : (s.list.find? fun o => o.2.isAt endpoint path) = none := by
    apply List.find?_eq_none.mpr
    intro o ho
    rw [h o ho]
    exact Bool.false_ne_true
  unfold removeHandleByUri
  rw [hf]

theorem Tidy.register (hs : Tidy s) (x : Registration)
    (h : ∀ o ∈ s.list, o.2.isAt x.endpoint x.path = false) : Tidied (addObserverBlock x s) := by
  unfold addObserverBlock
  rw [removeHandleByUri_fresh h]
  split
  · exact hs
  · next i s' ha =>
    obtain ⟨hs', _, _, hi, hu⟩ := hs.membAlloc ha
    unfold ocNewString
    rcases hs'.alloc hi (x.path.length + 1) with he | ⟨t, he, hk⟩
    · rw [he]
      rfl
    · rw [he]
      have hperm : (Blocks.handles { s' with
          mmem := t, list := s'.list ++ [(i, x.observer s'.observeCounter)] }).Perm
            (.url i :: s'.handles) := by
        unfold Blocks.handles
        rw [List.map_append, List.append_assoc]
        exact List.perm_middle
      refine hk _ rfl hperm ?_
      intro k hku
      rcases List.mem_cons.mp (hperm.mem_iff.mp hku) with hki | hku
      · rw [Handle.url.inj hki]
        exact hu
      · exact hs'.used k hku

theorem Tidy.notified (hs : Tidy s) (n : Nat) (mid : UInt16) (counted : Bool) :
    Tidy (notifiedBlock n mid counted s) := by
  have hh : (notifiedBlock n mid counted s).handles = s.handles := by
    unfold Blocks.handles
    congr 1
    exact Scan.map_modify_same (g := sentBlock mid counted)
      (f := fun o => (Handle.url o.1 : Handle max m)) (fun _ => rfl) s.list n
  exact ⟨hh.symm ▸ hs.strings, hh.symm ▸ hs.nodup, hh.symm ▸ hs.used⟩

theorem other_mem_handles {j : Fin m} : Handle.other j ∈ s.handles ↔ j ∈ s.others := by
  simp [Blocks.handles]

theorem Tidy.newOther (hs : Tidy s) (j : Fin m) (str : List UInt8) : Tidied (newOther j str s) := by
  unfold Coap.newOther
  split
  · exact hs
  · next hj =>
    unfold ocNewString
    rcases hs.alloc (mt other_mem_handles.mp hj) (str.length + 1) with he | ⟨t, he, hk⟩
    · rw [he]
      rfl
    · rw [he]
      have hperm : (Blocks.handles { s with mmem := t, others := s.others ++ [j] }).Perm
          (.other j :: s.handles) := by
        unfold Blocks.handles
        rw [List.map_append, ← List.append_assoc]
        exact List.perm_append_comm
      refine hk _ rfl hperm ?_
      intro k hku
      rcases List.mem_cons.mp (hperm.mem_iff.mp hku) with hki | hku
      · cases hki
      · exact hs.used k hku

theorem Tidy.freeOther (hs : Tidy s) (j : Fin m) : Tidied (freeOther j s) := by
  unfold Coap.freeOther
  split
  · next hj =>
    obtain ⟨t, he, hk⟩ := hs.free (other_mem_handles.mpr hj)
    unfold ocFreeString
    rw [he]
    have hh : (Blocks.handles { s with mmem := t, others := s.others.erase j }) =
        s.handles.erase (.other j) := by
      have hno : Handle.other j ∉ s.list.map fun o => (Handle.url o.1 : Handle max m) := by
        simp
      have hinj : Injective (Handle.other : Fin m → Handle max m) := fun _ _ => Handle.other.inj
      unfold Blocks.handles
      rw [List.erase_append_right _ hno, List.map_erase hinj]
    refine hk _ rfl hh ?_
    intro k hku
    rw [hh] at hku
    exact hs.used k (List.mem_of_mem_erase hku)
  · exact hs

/-! ## the condition -/

/-- nobody is replaced: an operation that takes out the observer of an endpoint and path finds none -/
def PoolOp.Fresh (s : Blocks max m) : PoolOp m → Prop
  | .observe (.register x) => ∀ o ∈ s.list, o.2.isAt x.endpoint x.path = false
  | .observe (.removeByUri endpoint path) => ∀ o ∈ s.list, o.2.isAt endpoint path = false
  | _ => True

def FreshRun (uri : Nat → List UInt8) : Blocks max m → List (PoolOp m) → Prop
  | _, [] => True
  | s, op :: ops => op.Fresh s ∧ ∀ s', op.apply uri s = .ok s' → FreshRun uri s' ops

instance (s : Blocks max m) (op : PoolOp m) : Decidable (op.Fresh s) :=
  match op with
  | .observe (.register x) =>
    inferInstanceAs (Decidable (∀ o ∈ s.list, o.2.isAt x.endpoint x.path = false))
  | .observe (.removeByUri endpoint path) =>
    inferInstanceAs (Decidable (∀ o ∈ s.list, o.2.isAt endpoint path = false))
  | .observe (.removeByClient _) => inferInstanceAs (Decidable True)
  | .observe (.removeByToken _ _) => inferInstanceAs (Decidable True)
  | .observe (.removeByMid _ _) => inferInstanceAs (Decidable True)
  | .observe (.removeByResource _) => inferInstanceAs (Decidable True)
  | .observe (.notify _ _ _) => inferInstanceAs (Decidable True)
  | .newString _ _ => inferInstanceAs (Decidable True)
  | .freeString _ => inferInstanceAs (Decidable True)

instance freshRunDecidable (uri : Nat → List UInt8) :
    (s : Blocks max m) → (ops : List (PoolOp m)) → Decidable (FreshRun uri s ops)
  | _, [] => isTrue trivial
  | s, op :: ops =>
    match he : op.apply uri s with
    | .error _ => decidable_of_iff (op.Fresh s) ⟨fun h => ⟨h, fun _ h' => by rw [he] at h'; cases h'⟩,
        fun h => h.1⟩
    | .ok s' =>
      have := freshRunDecidable uri s' ops
      decidable_of_iff (op.Fresh s ∧ FreshRun uri s' ops)
        ⟨fun h => ⟨h.1, fun s'' h' => by rw [he] at h'; cases h'; exact h.2⟩,
          fun h => ⟨h.1, h.2 s' he⟩⟩

theorem Tidy.apply (hs : Tidy s) (uri : Nat → List UInt8) (op : PoolOp m) (hf : op.Fresh s) :
    Tidied (op.apply uri s) := by
  cases op with
  | observe op =>
    cases op with
    | register x => exact hs.register x hf
    | removeByUri endpoint path =>
      show Tidy (removeHandleByUri endpoint path s)
      rw [removeHandleByUri_fresh hf]
      exact hs
    | removeByClient endpoint => exact hs.removeAll fun o => ocEndpointCompare o.endpoint endpoint
    | removeByToken endpoint token => exact hs.removeFirst _
    | removeByMid endpoint mid => exact hs.removeFirst _
    | removeByResource resource => exact hs.removeAll _
    | notify n mid counted => exact hs.notified n mid counted
  | newString j str => exact hs.newOther j str
  | freeString j => exact hs.freeOther j

theorem Tidy.run (hs : Tidy s) (uri : Nat → List UInt8) {pre post : List (PoolOp m)}
    (hf : FreshRun uri s (pre ++ post)) :
    Tidied (s.run uri pre) ∧ ∀ s', s.run uri pre = .ok s' → FreshRun uri s' post := by
  induction pre generalizing s with
  | nil =>
    refine ⟨hs, ?_⟩
    intro s' he
    cases he
    exact hf
  | cons op pre ih =>
    have ha := hs.apply uri op hf.1
    unfold Blocks.run
    cases he : op.apply uri s with
    | error e =>
      rw [he] at ha
      exact ⟨ha, fun _ h => by cases h⟩
    | ok s' =>
      rw [he] at ha
      exact ih ha (hf.2 s' he)

theorem tidy_init (bytes : Nat) : Tidy (Blocks.init max m bytes) where
  strings := ⟨[], ⟨rfl, List.nodup_nil⟩, fun _ => Iff.rfl⟩
  nodup := List.nodup_nil
  used _ h := by cases h

/-- the URLs of observers that are gone are off the list -/
def Released (s s' : Blocks max m) : Prop :=
  ∀ i, Handle.url i ∈ s.handles → Handle.url i ∉ s'.handles →
    ∀ l, Path s'.mmem.chain.next s'.mmem.chain.head l → Handle.url i ∉ l

theorem Tidy.released {s' : Blocks max m} (hs : Tidy s') : Released s s' := by
  obtain ⟨l, hl, hm⟩ := hs.strings
  intro i _ hi l' hp
  rw [← hl.path.unique hp, hm]
  exact hi

/-- an operation takes the URLs of the observers that it removes or replaces off the list; a
registration does so before it looks for memory -/
def PoolOp.Releases (uri : Nat → List UInt8) (s : Blocks max m) : PoolOp m → Prop
  | .observe (.register x) => Released s (removeHandleByUri x.endpoint x.path s)
  | op => ∀ s', op.apply uri s = .ok s' → Released s s'

theorem Tidy.releases (hs : Tidy s) (uri : Nat → List UInt8) (op : PoolOp m) (hf : op.Fresh s) :
    op.Releases uri s := by
  have hk : ∀ s', op.apply uri s = .ok s' → Released s s' := by
    intro s' he
    have ha := hs.apply uri op hf
    rw [he] at ha
    exact Tidy.released ha
  unfold PoolOp.Releases
  split
  · next x =>
    rw [removeHandleByUri_fresh hf]
    exact hs.released
  · exact hk

end

end

/-- in a run in which nobody is replaced, `bytes_list` comes to its end at all times, the URLs on it
are those of observers, and those of observers that are removed are taken off it -/
theorem strings_linked_run (max m bytes : Nat) (uri : Nat → List UInt8) (ops : List (PoolOp m))
    (hf : FreshRun uri (Blocks.init max m bytes) ops) (pre : List (PoolOp m)) (hp : pre <+: ops) :
    (Blocks.init max m bytes).run uri pre ≠ .error .hang ∧
      ∀ s, (Blocks.init max m bytes).run uri pre = .ok s →
        Pooled s ∧ ∀ op, pre ++ [op] <+: ops → op.Releases uri s := by
  obtain ⟨post, rfl⟩ := hp
  obtain ⟨ht, hpost⟩ := (tidy_init bytes).run uri hf
  constructor
  · intro he
    rw [he] at ht
    cases ht
  · intro s he
    rw [he] at ht
    have hs : Tidy s := ht
    refine ⟨hs.pooled, ?_⟩
    intro op ho
    obtain ⟨ops, ho⟩ := ho
    rw [List.append_assoc, List.append_cancel_left_eq] at ho
    have hfresh := hpost s he
    rw [← ho] at hfresh
    exact hs.releases uri op hfresh.1

/-! ## the observers

Whatever becomes of the strings, the observers themselves are those of `Observers`. -/

section
variable {max m : Nat} {s s' : Blocks max m} {t : Observers}

/-- observers have blocks of their own, which are in use -/
structure Placed (s : Blocks max m) : Prop where
  nodup : (s.list.map Prod.fst).Nodup
  used : ∀ o ∈ s.list, s.used o.1 = true

/-- the same observers -/
structure Mirrors (s : Blocks max m) (t : Observers) : Prop where
  list : t.list = s.list.map Prod.snd
  counter : t.observeCounter = s.observeCounter

/-- the memory that the pool has for a registration -/
def ObserveOp.decided (s : Blocks max m) : ObserveOp → ObserveOp
  | .register x => .register
      { x with granted := (ocMembAlloc (removeHandleByUri x.endpoint x.path s)).isSome }
  | op => op

/-- the first observer found is the one in its block -/
theorem eraseP_block {l : List (Fin max × Observer)} (hn : (l.map Prod.fst).Nodup)
    {q : Fin max × Observer → Bool} {o : Fin max × Observer} (hf : l.find? q = some o) :
    l.eraseP (inBlock o.1) = l.eraseP q := by
  induction l with
  | nil => cases hf
  | cons a l ih =>
    obtain ⟨ha, hn⟩ := List.nodup_cons.mp hn
    cases hq : q a with
    | true =>
      rw [List.find?_cons_of_pos hq] at hf
      cases hf
      have hself : inBlock o.1 o = true := beq_self_eq_true o.1
      rw [List.eraseP_cons_of_pos hq, List.eraseP_cons_of_pos hself]
    | false =>
      have hqa : ¬ q a = true := by simp [hq]
      rw [List.find?_cons_of_neg hqa] at hf
      have hao : ¬ inBlock o.1 a = true := by
        intro he
        exact ha (beq_iff_eq.mp he ▸ List.mem_map_of_mem (List.mem_of_find?_eq_some hf))
      rw [List.eraseP_cons_of_neg hqa, List.eraseP_cons_of_neg hao, ih hn hf]

/-- to take out a block is to keep the others -/
theorem eraseP_block_eq_filter {l : List (Fin max × Observer)} (hn : (l.map Prod.fst).Nodup)
    (i : Fin max) : l.eraseP (inBlock i) = l.filter fun a => !inBlock i a := by
  induction l with
  | nil => rfl
  | cons a l ih =>
    obtain ⟨ha, hn⟩ := List.nodup_cons.mp hn
    cases he : inBlock i a with
    | true =>
      rw [List.eraseP_cons_of_pos he, List.filter_cons_of_neg (by simp [he])]
      symm
      apply List.filter_eq_self.mpr
      intro b hb
      have hbi : ¬ inBlock i b = true := by
        intro hc
        rw [inBlock, beq_iff_eq] at he hc
        exact ha (he.trans hc.symm ▸ List.mem_map_of_mem hb)
      simpa using hbi
    | false => rw [List.eraseP_cons_of_neg (by simp [he]), List.filter_cons_of_pos (by simp [he]), ih hn]

theorem Placed.giveBack (hs : Placed s) (i : Fin max) (mmem : Mmem max m) :
    Placed (giveBack i { s with mmem }) where
  nodup := hs.nodup.sublist (List.eraseP_sublist.map _)
  used o ho := by
    have ho' : o ∈ s.list.filter fun a => !inBlock i a := eraseP_block_eq_filter hs.nodup i ▸ ho
    obtain ⟨hm, hi⟩ := List.mem_filter.mp ho'
    have hoi : o.1 ≠ i := by simpa [inBlock] using hi
    show update s.used i false o.1 = true
    rw [update_of_ne hoi]
    exact hs.used o hm

theorem Placed.removeHandleByUri (hs : Placed s) (endpoint : Endpoint) (path : List UInt8) :
    Placed (removeHandleByUri endpoint path s) := by
  unfold Coap.removeHandleByUri
  split
  · exact hs
  · exact hs.giveBack _ s.mmem

/-- one observer is taken out -/
theorem Placed.removeObserver (hs : Placed s) {i : Fin max} (h : coapRemoveObserver i s = .ok s') :
    Placed s' ∧ s'.list = (s.list.filter fun a => !inBlock i a) ∧
      s'.observeCounter = s.observeCounter := by
  unfold coapRemoveObserver at h
  split at h
  · cases h
  · next mmem _ =>
    cases h
    exact ⟨hs.giveBack i mmem, eraseP_block_eq_filter hs.nodup i, rfl⟩

theorem Placed.removeBlocks (hs : Placed s) {l : List (Fin max × Observer)}
    (h : removeBlocks l s = .ok s') :
    Placed s' ∧ s'.list = (s.list.filter fun a => !(l.map Prod.fst).contains a.1) ∧
      s'.observeCounter = s.observeCounter := by
  induction l generalizing s with
  | nil =>
    cases h
    exact ⟨hs, (List.filter_eq_self.mpr fun _ _ => rfl).symm, rfl⟩
  | cons o l ih =>
    unfold Coap.removeBlocks at h
    split at h
    · cases h
    · next s₁ he =>
      obtain ⟨hs₁, hl₁, hc₁⟩ := hs.removeObserver he
      obtain ⟨hs', hl, hc⟩ := ih hs₁ h
      refine ⟨hs', ?_, hc.trans hc₁⟩
      rw [hl, hl₁, List.filter_filter]
      apply List.filter_congr
      intro a _
      rw [List.map_cons, List.contains_cons, Bool.not_or, Bool.and_comm]
      rfl

theorem removeHandleByUri_list (hs : Placed s) (endpoint : Endpoint) (path : List UInt8) :
    (removeHandleByUri endpoint path s).list =
      s.list.eraseP fun o => o.2.isAt endpoint path := by
  unfold removeHandleByUri
  split
  · next hf =>
    refine (List.eraseP_of_forall_not ?_).symm
    intro o ho
    exact List.find?_eq_none.mp hf o ho
  · next o hf => exact eraseP_block hs.nodup hf

theorem Mirrors.removeHandleByUri (h : Mirrors s t) (hs : Placed s) (endpoint : Endpoint)
    (path : List UInt8) :
    Mirrors (removeHandleByUri endpoint path s) (coapRemoveObserverHandleByUri endpoint path t).2
    where
  list := by
    rw [handleByUri_list, h.list, List.eraseP_map, removeHandleByUri_list hs]
    rfl
  counter := by
    have hc : (Coap.removeHandleByUri endpoint path s).observeCounter = s.observeCounter := by
      unfold Coap.removeHandleByUri
      split <;> rfl
    have hc' : (coapRemoveObserverHandleByUri endpoint path t).2.observeCounter =
        t.observeCounter := by
      unfold coapRemoveObserverHandleByUri
      split <;> rfl
    rw [hc, hc', h.counter]

theorem Mirrors.register (h : Mirrors s t) (hs : Placed s) (uri : Nat → List UInt8)
    (x : Registration) (he : addObserverBlock x s = .ok s') :
    Placed s' ∧ Mirrors s' (((ObserveOp.register x).decided s).apply uri t) := by
  have hs₁ := hs.removeHandleByUri x.endpoint x.path
  have h₁ := h.removeHandleByUri hs x.endpoint x.path
  show Placed s' ∧ Mirrors s' (addObserver { x with
    granted := (ocMembAlloc (Coap.removeHandleByUri x.endpoint x.path s)).isSome } t).2
  rw [addObserver_snd]
  unfold addObserverBlock at he
  generalize Coap.removeHandleByUri x.endpoint x.path s = s₁ at he hs₁ h₁
  cases ha : ocMembAlloc s₁ with
  | none =>
    rw [ha] at he
    cases he
    exact ⟨hs₁, h₁⟩
  | some r =>
    obtain ⟨i, s₂⟩ := r
    rw [ha] at he
    dsimp only at he
    split at he
    · cases he
    · next mmem _ =>
      cases he
      unfold ocMembAlloc at ha
      split at ha
      · cases ha
      · next j hf =>
        cases ha
        have hfree : ∀ o ∈ s₁.list, o.1 ≠ i := by
          intro o ho hc
          have hu := List.find?_some hf
          rw [← hc, hs₁.used o ho] at hu
          cases hu
        refine ⟨⟨?_, ?_⟩, ⟨?_, h₁.counter⟩⟩
        · show ((s₁.list ++ [(i, x.observer s₁.observeCounter)]).map Prod.fst).Nodup
          rw [List.map_append, List.nodup_append]
          refine ⟨hs₁.nodup, List.nodup_singleton _, ?_⟩
          intro a ha b hb hab
          obtain ⟨o, ho, rfl⟩ := List.mem_map.mp ha
          exact hfree o ho (hab.trans (List.mem_singleton.mp hb))
        · intro o ho
          show update s₁.used i true o.1 = true
          rcases List.mem_append.mp ho with ho | ho
          · rw [update_of_ne (hfree o ho)]
            exact hs₁.used o ho
          · rw [List.mem_singleton.mp ho, update_self]
        · show _ ++ [_] = (s₁.list ++ [(i, x.observer s₁.observeCounter)]).map Prod.snd
          rw [List.map_append, ← h₁.list, ← h₁.counter]
          rfl

theorem Mirrors.removeFirst (h : Mirrors s t) (hs : Placed s) (uri : Nat → List UInt8)
    (p : Observer → Bool) (he : removeFirstBlock p s = .ok s') :
    Placed s' ∧ Mirrors s' (removeFirst uri p t).2 := by
  have hc : (Coap.removeFirst uri p t).2.observeCounter = t.observeCounter := by
    unfold Coap.removeFirst
    split <;> rfl
  unfold removeFirstBlock at he
  split at he
  · next hf =>
    cases he
    refine ⟨hs, ⟨?_, hc.trans h.counter⟩⟩
    rw [removeFirst_list, h.list, List.eraseP_map]
    refine congrArg (List.map Prod.snd) (List.eraseP_of_forall_not ?_)
    intro o ho
    exact List.find?_eq_none.mp hf o ho
  · next o hf =>
    obtain ⟨hs', hl, hc'⟩ := hs.removeObserver he
    refine ⟨hs', ⟨?_, hc.trans (h.counter.trans hc'.symm)⟩⟩
    rw [removeFirst_list, h.list, List.eraseP_map, hl, ← eraseP_block_eq_filter hs.nodup,
      eraseP_block hs.nodup hf]
    rfl

/-- the blocks of the observers found are those of no others -/
theorem Mirrors.removeAll (h : Mirrors s t) (hs : Placed s) (uri : Nat → List UInt8)
    (p : Observer → Bool) (he : removeAllBlocks p s = .ok s') :
    Placed s' ∧ Mirrors s' (removeAll uri p t).2 := by
  obtain ⟨hs', hl, hc⟩ := hs.removeBlocks he
  have hc' : ∀ (l : List Observer) (t : Observers),
      (l.foldl (dismiss uri) t).observeCounter = t.observeCounter := by
    intro l
    induction l with
    | nil =>
      intro t
      rfl
    | cons o l ih =>
      intro t
      exact ih (dismiss uri t o)
  refine ⟨hs', ⟨?_, (hc' _ t).trans (h.counter.trans hc.symm)⟩⟩
  show t.list.filter (fun o => !p o) = _
  rw [h.list, List.filter_map, hl]
  refine congrArg (List.map Prod.snd) (List.filter_congr ?_)
  intro o ho
  refine congrArg not (Bool.eq_iff_iff.mpr ?_)
  rw [List.contains_iff_mem, List.mem_map]
  constructor
  · intro hp
    exact ⟨o, List.mem_filter.mpr ⟨ho, hp⟩, rfl⟩
  · intro hm
    obtain ⟨a, ha, hao⟩ := hm
    obtain ⟨ha, hpa⟩ := List.mem_filter.mp ha
    rw [← List.inj_on_of_nodup_map hs.nodup ha ho hao]
    exact hpa

theorem Mirrors.notified (h : Mirrors s t) (hs : Placed s) (n : Nat) (mid : UInt16)
    (counted : Bool) :
    Placed (notifiedBlock n mid counted s) ∧
      Mirrors (notifiedBlock n mid counted s) (notified n mid counted t) := by
  have hfst : (notifiedBlock n mid counted s).list.map Prod.fst = s.list.map Prod.fst :=
    Scan.map_modify_same (g := sentBlock mid counted) (fun _ => rfl) s.list n
  refine ⟨⟨hfst ▸ hs.nodup, ?_⟩, ⟨?_, ?_⟩⟩
  · intro o ho
    have ho' : o.1 ∈ s.list.map Prod.fst := hfst ▸ List.mem_map_of_mem ho
    obtain ⟨a, ha, hao⟩ := List.mem_map.mp ho'
    rw [← hao]
    exact hs.used a ha
  · show t.list.modify n (Observer.sent mid counted) = _
    rw [h.list]
    exact (Scan.map_modify_comm (f := Prod.snd) (g := sentBlock mid counted) (fun _ => rfl) s.list n).symm
  · show (if counted then t.observeCounter + 1 else t.observeCounter) = _
    rw [h.counter]
    rfl

/-- one operation -/
theorem Mirrors.apply (h : Mirrors s t) (hs : Placed s) (uri : Nat → List UInt8) (op : ObserveOp)
    (he : (PoolOp.observe op).apply uri s = .ok s') :
    Placed s' ∧ Mirrors s' ((op.decided s).apply uri t) := by
  cases op with
  | register x => exact h.register hs uri x he
  | removeByUri endpoint path =>
    cases he
    exact ⟨hs.removeHandleByUri endpoint path, h.removeHandleByUri hs endpoint path⟩
  | removeByClient endpoint => exact h.removeAll hs uri _ he
  | removeByToken endpoint token => exact h.removeFirst hs uri _ he
  | removeByMid endpoint mid => exact h.removeFirst hs uri _ he
  | removeByResource resource => exact h.removeAll hs uri _ he
  | notify n mid counted =>
    cases he
    exact h.notified hs n mid counted

/-- the strings of the rest of the program -/
theorem apply_other {uri : Nat → List UInt8} {op : PoolOp m} (ho : ∀ o, op ≠ .observe o)
    (he : op.apply uri s = .ok s') :
    s'.list = s.list ∧ s'.used = s.used ∧ s'.observeCounter = s.observeCounter := by
  cases op with
  | observe op => exact absurd rfl (ho op)
  | newString j str =>
    replace he : newOther j str s = .ok s' := he
    unfold newOther at he
    repeat' split at he
    all_goals cases he
    all_goals exact ⟨rfl, rfl, rfl⟩
  | freeString j =>
    replace he : freeOther j s = .ok s' := he
    unfold freeOther at he
    repeat' split at he
    all_goals cases he
    all_goals exact ⟨rfl, rfl, rfl⟩

/-- every run that returns is one of the observers alone -/
theorem Mirrors.run (h : Mirrors s t) (hs : Placed s) (uri : Nat → List UInt8)
    (ops : List (PoolOp m)) (he : s.run uri ops = .ok s') :
    ∃ ops', Placed s' ∧ Mirrors s' (t.run uri ops') := by
  induction ops generalizing s t with
  | nil =>
    cases he
    exact ⟨[], hs, h⟩
  | cons op ops ih =>
    unfold Blocks.run at he
    split at he
    · cases he
    · next s₁ ha =>
      by_cases ho : ∃ o, op = .observe o
      · obtain ⟨o, rfl⟩ := ho
        obtain ⟨hs₁, h₁⟩ := h.apply hs uri o ha
        obtain ⟨ops', hs', h'⟩ := ih h₁ hs₁ he
        exact ⟨o.decided s :: ops', hs', h'⟩
      · obtain ⟨hl, hu, hc⟩ := apply_other (fun o hc => ho ⟨o, hc⟩) ha
        have hs₁ : Placed s₁ := ⟨hl ▸ hs.nodup, by rw [hl, hu]; exact hs.used⟩
        have h₁ : Mirrors s₁ t := ⟨hl ▸ h.list, hc ▸ h.counter⟩
        exact ih h₁ hs₁ he

/-- the observers in their blocks are those of a run of `Observers`, so that no two of them have the
same endpoint and path -/
theorem blocks_run_observers {bytes : Nat} {uri : Nat → List UInt8} {ops : List (PoolOp m)}
    (he : (Blocks.init max m bytes).run uri ops = .ok s) :
    (∃ ops', Mirrors s (Observers.init.run uri ops')) ∧ Apart (s.list.map Prod.snd) := by
  have hs : Placed (Blocks.init max m bytes) :=
    ⟨List.nodup_nil, fun _ h => absurd h List.not_mem_nil⟩
  have h : Mirrors (Blocks.init max m bytes) Observers.init := ⟨rfl, rfl⟩
  obtain ⟨ops', _, h'⟩ := h.run hs uri ops he
  refine ⟨⟨ops', h'⟩, ?_⟩
  rw [← h'.list]
  exact (kept_init.run uri ops').apart

end

/-- two clients register, and one of them again after it has been removed; a string of the program
comes and goes -/
theorem strings_linked_once :
    let ops : List (PoolOp 1) := [.newString 0 [47, 97], .observe (.register (registrationAt 1 true)),
      .observe (.register (registrationAt 2 true)), .freeString 0,
      .observe (.removeByToken (clientAt 1) [1]), .observe (.register (registrationAt 1 true))]
    ∀ pre, pre <+: ops → (Blocks.init 2 1 64).run (fun _ => [47, 97]) pre ≠ .error .hang ∧
      ∀ s, (Blocks.init 2 1 64).run (fun _ => [47, 97]) pre = .ok s →
        Pooled s ∧ ∀ op, pre ++ [op] <+: ops → op.Releases (fun _ => [47, 97]) s :=
  strings_linked_run 2 1 64 (fun _ => [47, 97]) _ (by decide)

/-- a client registers twice: the handle of its URL is linked to itself -/
theorem replaced_loops : ∃ s, (Blocks.init 2 1 64).run (fun _ => [47, 97])
      [.observe (.register (registrationAt 1 true)), .observe (.register (registrationAt 1 true))] =
        .ok s ∧ ¬ Pooled s := by
  have hrun : (Except.toOption ((Blocks.init 2 1 64).run (fun _ => [47, 97])
      [.observe (.register (registrationAt 1 true)),
        .observe (.register (registrationAt 1 true))])).map
      (fun s => (s.mmem.chain.head, s.mmem.chain.next (.url 0))) =
        some (some (.url 0), some (.url 0)) := by decide
  obtain ⟨s, hs, hc⟩ := Option.map_eq_some_iff.mp hrun
  obtain ⟨hhead, hnext⟩ := Prod.mk.inj hc
  refine ⟨s, ?_, ?_⟩
  · generalize (Blocks.init 2 1 64).run _ _ = r at hs
    cases r with
    | error e => cases hs
    | ok s' => exact congrArg Except.ok (Option.some.inj hs)
  · intro ⟨l, hl, _⟩
    have hp := hl.path
    rw [hhead] at hp
    exact hp.not_loop hnext

end Coap
