import Mathlib.Data.List.Nodup

/-!
# Nodes with forward and backward links

A list holds nodes at distinct addresses, and a node may name the address of a next and of a
previous node.  The links are sound when they lead to nodes of the list, each is matched by the
opposite link, and every walk along the forward links comes to an end.

* `Sound.filter`                  nodes may go if no node that stays is linked to one of them;
* `Sound.snoc`                    a node without links may be added;
* `Sound.linkNext`, `linkPrev`    a new node may follow or precede one that has no such link yet;
* `Sound.filterNext`, `filterPrev`  nodes may go that one link leads to, if that is taken away.
-/

namespace Links

/-- a node at an address -/
structure Node (α : Type) where
  addr : Nat
  val : α
  next : Option Nat
  prev : Option Nat
deriving DecidableEq

section
variable {α : Type}

/-- the walk along the forward links from an address ends, and stays inside the list -/
inductive Ends (ns : List (Node α)) : Option Nat → Prop
  | null : Ends ns none
  | node (n : Node α) (h : n ∈ ns) (t : Ends ns n.next) : Ends ns (some n.addr)

/-- the links of a list of nodes are sound -/
structure Sound (ns : List (Node α)) : Prop where
  nodup : (ns.map Node.addr).Nodup
  next : ∀ n ∈ ns, ∀ a, n.next = some a → ∃ m ∈ ns, m.addr = a ∧ m.prev = some n.addr
  prev : ∀ n ∈ ns, ∀ a, n.prev = some a → ∃ m ∈ ns, m.addr = a ∧ m.next = some n.addr
  ends : ∀ n ∈ ns, Ends ns (some n.addr)

/-- a node with another forward link -/
def Node.withNext (b : Option Nat) (n : Node α) : Node α := { n with next := b }

/-- a node with another backward link -/
def Node.withPrev (b : Option Nat) (n : Node α) : Node α := { n with prev := b }

/-- a node without links -/
def Node.Free (n : Node α) : Prop := n.next = none ∧ n.prev = none

instance (n : Node α) : Decidable n.Free := inferInstanceAs (Decidable (_ ∧ _))

theorem sound_nil : Sound ([] : List (Node α)) :=
  ⟨List.nodup_nil, List.forall_mem_nil _, List.forall_mem_nil _, List.forall_mem_nil _⟩

/-- a node is known by its address -/
theorem eq_of_addr {ns : List (Node α)} (h : (ns.map Node.addr).Nodup) {n m : Node α}
    (hn : n ∈ ns) (hm : m ∈ ns) (he : n.addr = m.addr) : n = m :=
  List.inj_on_of_nodup_map h hn hm he

/-! ## nodes that go -/

/-- a node with the address of one that stays is that one -/
theorem mem_filter_of_addr {ns : List (Node α)} {f : Node α → Bool} (h : (ns.map Node.addr).Nodup)
    {x : Node α} (hx : x ∈ ns) {a : Nat} (ha : x.addr = a)
    (hs : ∃ m ∈ ns, m.addr = a ∧ f m = true) : x ∈ ns.filter f := by
  obtain ⟨m, hm, he, hf⟩ := hs
  rw [eq_of_addr h hm hx (he.trans ha.symm)] at hf
  exact List.mem_filter.mpr ⟨hx, hf⟩

/-- a walk among the nodes that stay, where these link to each other only -/
theorem Ends.filter {ns : List (Node α)} {f : Node α → Bool} (hs : Sound ns)
    (hk : ∀ n ∈ ns, f n = true → ∀ a, n.next = some a → ∃ m ∈ ns, m.addr = a ∧ f m = true)
    {x : Option Nat} (h : Ends ns x)
    (hx : ∀ a, x = some a → ∃ m ∈ ns, m.addr = a ∧ f m = true) : Ends (ns.filter f) x := by
  induction h with
  | null => exact .null
  | node n hn _ ih =>
    have hm := mem_filter_of_addr hs.nodup hn rfl (hx n.addr rfl)
    exact .node n hm (ih (hk n hn (List.mem_filter.mp hm).2))

/-- nodes may go if no node that stays is linked to one of them -/
theorem Sound.filter {ns : List (Node α)} {f : Node α → Bool} (h : Sound ns)
    (hk : ∀ n ∈ ns, f n = true → ∀ a, n.next = some a ∨ n.prev = some a →
      ∃ m ∈ ns, m.addr = a ∧ f m = true) : Sound (ns.filter f) where
  nodup := h.nodup.sublist (List.filter_sublist.map _)
  next n hn a ha := by
    obtain ⟨hm, hf⟩ := List.mem_filter.mp hn
    obtain ⟨m, hm', he, hp⟩ := h.next n hm a ha
    exact ⟨m, mem_filter_of_addr h.nodup hm' he (hk n hm hf a (Or.inl ha)), he, hp⟩
  prev n hn a ha := by
    obtain ⟨hm, hf⟩ := List.mem_filter.mp hn
    obtain ⟨m, hm', he, hp⟩ := h.prev n hm a ha
    exact ⟨m, mem_filter_of_addr h.nodup hm' he (hk n hm hf a (Or.inr ha)), he, hp⟩
  ends n hn := by
    obtain ⟨hm, hf⟩ := List.mem_filter.mp hn
    refine Ends.filter h (fun m hm hfm a ha => hk m hm hfm a (Or.inl ha)) (h.ends n hm) ?_
    intro a ha
    cases ha
    exact ⟨n, hm, rfl, hf⟩

/-- nodes without links may go -/
theorem Sound.filterFree {ns : List (Node α)} {f : Node α → Bool} (h : Sound ns)
    (hf : ∀ n ∈ ns, f n = false → n.Free) : Sound (ns.filter f) := by
  apply h.filter
  intro m hm _ b hb
  -- a link to a node that goes would be matched by one of its own
  rcases hb with hb | hb
  · obtain ⟨x, hx, hxb, hxp⟩ := h.next m hm b hb
    refine ⟨x, hx, hxb, Bool.not_eq_false _ ▸ ?_⟩
    intro hc
    rw [(hf x hx hc).2] at hxp
    cases hxp
  · obtain ⟨x, hx, hxb, hxn⟩ := h.prev m hm b hb
    refine ⟨x, hx, hxb, Bool.not_eq_false _ ▸ ?_⟩
    intro hc
    rw [(hf x hx hc).1] at hxn
    cases hxn

/-! ## new nodes -/

theorem Ends.mono {ns ms : List (Node α)} (hs : ∀ n ∈ ns, n ∈ ms) {x : Option Nat}
    (h : Ends ns x) : Ends ms x := by
  induction h with
  | null => exact .null
  | node n hn _ ih => exact .node n (hs n hn) ih

theorem nodup_addr_snoc {ns : List (Node α)} (hn : (ns.map Node.addr).Nodup) {n : Node α}
    (hf : n.addr ∉ ns.map Node.addr) : ((ns ++ [n]).map Node.addr).Nodup := by
  rw [List.map_append, List.nodup_append]
  refine ⟨hn, List.nodup_singleton _, ?_⟩
  intro x hx y hy he
  cases List.mem_singleton.mp hy
  exact hf (he ▸ hx)

/-- a node without links may be added -/
theorem Sound.snoc {ns : List (Node α)} (h : Sound ns) {n : Node α} (hf : n.Free)
    (ha : n.addr ∉ ns.map Node.addr) : Sound (ns ++ [n]) where
  nodup := nodup_addr_snoc h.nodup ha
  next m hm a he := by
    rcases List.mem_append.mp hm with hm | hm
    · obtain ⟨x, hx, hxa, hxp⟩ := h.next m hm a he
      exact ⟨x, List.mem_append_left _ hx, hxa, hxp⟩
    · cases List.mem_singleton.mp hm
      rw [hf.1] at he
      cases he
  prev m hm a he := by
    rcases List.mem_append.mp hm with hm | hm
    · obtain ⟨x, hx, hxa, hxp⟩ := h.prev m hm a he
      exact ⟨x, List.mem_append_left _ hx, hxa, hxp⟩
    · cases List.mem_singleton.mp hm
      rw [hf.2] at he
      cases he
  ends m hm := by
    rcases List.mem_append.mp hm with hm | hm
    · exact (h.ends m hm).mono fun x hx => List.mem_append_left _ hx
    · cases List.mem_singleton.mp hm
      refine .node n (List.mem_append_right _ (List.mem_singleton.mpr rfl)) ?_
      rw [hf.1]
      exact .null

/-! ## writing through an address -/

/-- the node at an address changed -/
def update (a : Nat) (f : Node α → Node α) (ns : List (Node α)) : List (Node α) :=
  ns.map fun n => if n.addr = a then f n else n

theorem map_addr_update {a : Nat} {f : Node α → Node α} (hf : ∀ n, (f n).addr = n.addr)
    (ns : List (Node α)) : (update a f ns).map Node.addr = ns.map Node.addr := by
  rw [update, List.map_map]
  apply List.map_congr_left
  intro n _
  show (if n.addr = a then f n else n).addr = n.addr
  split
  · exact hf n
  · rfl

theorem map_val_update {a : Nat} {f : Node α → Node α} (hf : ∀ n, (f n).val = n.val)
    (ns : List (Node α)) : (update a f ns).map Node.val = ns.map Node.val := by
  rw [update, List.map_map]
  apply List.map_congr_left
  intro n _
  show (if n.addr = a then f n else n).val = n.val
  split
  · exact hf n
  · rfl

theorem mem_update {a : Nat} {f : Node α → Node α} {ns : List (Node α)} {m : Node α} :
    m ∈ update a f ns ↔ ∃ n ∈ ns, (n.addr = a ∧ m = f n) ∨ (n.addr ≠ a ∧ m = n) := by
  rw [update, List.mem_map]
  constructor
  · intro ⟨n, hn, he⟩
    refine ⟨n, hn, ?_⟩
    split at he
    · next h => exact Or.inl ⟨h, he.symm⟩
    · next h => exact Or.inr ⟨h, he.symm⟩
  · intro ⟨n, hn, he⟩
    refine ⟨n, hn, ?_⟩
    rcases he with ⟨h, rfl⟩ | ⟨h, rfl⟩
    · exact if_pos h
    · exact if_neg h

/-- a node is still there, with a forward link of its own choice -/
theorem mem_setNext {a : Nat} {b : Option Nat} {ns : List (Node α)} {m : Node α} (hm : m ∈ ns) :
    ∃ k ∈ update a (Node.withNext b) ns, k.addr = m.addr ∧ k.prev = m.prev := by
  by_cases h : m.addr = a
  · exact ⟨m.withNext b, mem_update.mpr ⟨m, hm, Or.inl ⟨h, rfl⟩⟩, rfl, rfl⟩
  · exact ⟨m, mem_update.mpr ⟨m, hm, Or.inr ⟨h, rfl⟩⟩, rfl, rfl⟩

theorem mem_setPrev {a : Nat} {b : Option Nat} {ns : List (Node α)} {m : Node α} (hm : m ∈ ns) :
    ∃ k ∈ update a (Node.withPrev b) ns, k.addr = m.addr ∧ k.next = m.next := by
  by_cases h : m.addr = a
  · exact ⟨m.withPrev b, mem_update.mpr ⟨m, hm, Or.inl ⟨h, rfl⟩⟩, rfl, rfl⟩
  · exact ⟨m, mem_update.mpr ⟨m, hm, Or.inr ⟨h, rfl⟩⟩, rfl, rfl⟩

section
variable {ns : List (Node α)} {n : Node α} {b : Nat} {v : α}

/-- a walk that came to its end at `n` goes on to the new node, and ends there -/
theorem Ends.linkNext (hn : n ∈ ns) {x : Option Nat} (h : Ends ns x) :
    Ends (update n.addr (Node.withNext (some b)) ns ++ [⟨b, v, none, some n.addr⟩])
      x := by
  induction h with
  | null => exact .null
  | node m hm _ ih =>
    by_cases he : m.addr = n.addr
    · have hmem : n.withNext (some b) ∈
          update n.addr (Node.withNext (some b)) ns ++ [⟨b, v, none, some n.addr⟩] :=
        List.mem_append_left _ (mem_update.mpr ⟨n, hn, Or.inl ⟨rfl, rfl⟩⟩)
      rw [he]
      refine .node (n.withNext (some b)) hmem ?_
      exact .node ⟨b, v, none, some n.addr⟩
        (List.mem_append_right _ (List.mem_singleton.mpr rfl)) .null
    · exact .node m (List.mem_append_left _ (mem_update.mpr ⟨m, hm, Or.inr ⟨he, rfl⟩⟩)) ih

/-- a new node may follow one that has no next -/
theorem Sound.linkNext (h : Sound ns) (hn : n ∈ ns) (hf : n.next = none)
    (hb : b ∉ ns.map Node.addr) :
    Sound (update n.addr (Node.withNext (some b)) ns ++ [⟨b, v, none, some n.addr⟩])
    where
  nodup := by
    have hu := map_addr_update (a := n.addr) (f := Node.withNext (some b)) (fun _ => rfl) ns
    apply nodup_addr_snoc
    · rw [hu]
      exact h.nodup
    · rw [hu]
      exact hb
  next m hm a ha := by
    rcases List.mem_append.mp hm with hm | hm
    · obtain ⟨k, hk, ⟨hka, rfl⟩ | ⟨hka, rfl⟩⟩ := mem_update.mp hm
      · cases ha
        exact ⟨_, List.mem_append_right _ (List.mem_singleton.mpr rfl), rfl, congrArg some hka.symm⟩
      · obtain ⟨x, hx, hxa, hxp⟩ := h.next m hk a ha
        obtain ⟨y, hy, hya, hyp⟩ := mem_setNext (a := n.addr) (b := some b) hx
        exact ⟨y, List.mem_append_left _ hy, hya.trans hxa, hyp.trans hxp⟩
    · cases List.mem_singleton.mp hm
      cases ha
  prev m hm a ha := by
    rcases List.mem_append.mp hm with hm | hm
    · obtain ⟨k, hk, hm'⟩ := mem_update.mp hm
      have hkp : k.prev = some a ∧ m.addr = k.addr := by
        rcases hm' with ⟨_, rfl⟩ | ⟨_, rfl⟩
        · exact ⟨ha, rfl⟩
        · exact ⟨ha, rfl⟩
      obtain ⟨x, hx, hxa, hxn⟩ := h.prev k hk a hkp.1
      -- `n` has no next, so it is not the node before `k`
      have hne : x.addr ≠ n.addr := by
        intro hc
        rw [eq_of_addr h.nodup hx hn hc, hf] at hxn
        cases hxn
      refine ⟨x, List.mem_append_left _ (mem_update.mpr ⟨x, hx, Or.inr ⟨hne, rfl⟩⟩), hxa, ?_⟩
      rw [hxn, hkp.2]
    · cases List.mem_singleton.mp hm
      cases ha
      exact ⟨_, List.mem_append_left _ (mem_update.mpr ⟨n, hn, Or.inl ⟨rfl, rfl⟩⟩), rfl, rfl⟩
  ends m hm := by
    rcases List.mem_append.mp hm with hm | hm
    · obtain ⟨k, hk, hm'⟩ := mem_update.mp hm
      have hka : m.addr = k.addr := by
        rcases hm' with ⟨_, rfl⟩ | ⟨_, rfl⟩
        · rfl
        · rfl
      rw [hka]
      exact (h.ends k hk).linkNext hn
    · cases List.mem_singleton.mp hm
      exact .node _ (List.mem_append_right _ (List.mem_singleton.mpr rfl)) .null

/-- the walks do not see the backward links -/
theorem Ends.setPrev {a : Nat} {p : Option Nat} {x : Option Nat} (h : Ends ns x) :
    Ends (update a (Node.withPrev p) ns) x := by
  induction h with
  | null => exact .null
  | node m hm _ ih =>
    obtain ⟨k, hk, hka, hkn⟩ := mem_setPrev (a := a) (b := p) hm
    rw [← hka]
    refine .node k hk ?_
    rw [hkn]
    exact ih

/-- a new node may precede one that has no previous -/
theorem Sound.linkPrev (h : Sound ns) (hn : n ∈ ns) (hf : n.prev = none)
    (hb : b ∉ ns.map Node.addr) :
    Sound (update n.addr (Node.withPrev (some b)) ns ++ [⟨b, v, some n.addr, none⟩])
    where
  nodup := by
    have hu := map_addr_update (a := n.addr) (f := Node.withPrev (some b)) (fun _ => rfl) ns
    apply nodup_addr_snoc
    · rw [hu]
      exact h.nodup
    · rw [hu]
      exact hb
  next m hm a ha := by
    rcases List.mem_append.mp hm with hm | hm
    · obtain ⟨k, hk, hm'⟩ := mem_update.mp hm
      have hkn : k.next = some a ∧ m.addr = k.addr := by
        rcases hm' with ⟨_, rfl⟩ | ⟨_, rfl⟩
        · exact ⟨ha, rfl⟩
        · exact ⟨ha, rfl⟩
      obtain ⟨x, hx, hxa, hxp⟩ := h.next k hk a hkn.1
      -- `n` has no previous, so it is not the node after `k`
      have hne : x.addr ≠ n.addr := by
        intro hc
        rw [eq_of_addr h.nodup hx hn hc, hf] at hxp
        cases hxp
      refine ⟨x, List.mem_append_left _ (mem_update.mpr ⟨x, hx, Or.inr ⟨hne, rfl⟩⟩), hxa, ?_⟩
      rw [hxp, hkn.2]
    · cases List.mem_singleton.mp hm
      cases ha
      exact ⟨_, List.mem_append_left _ (mem_update.mpr ⟨n, hn, Or.inl ⟨rfl, rfl⟩⟩), rfl, rfl⟩
  prev m hm a ha := by
    rcases List.mem_append.mp hm with hm | hm
    · obtain ⟨k, hk, ⟨hka, rfl⟩ | ⟨hka, rfl⟩⟩ := mem_update.mp hm
      · cases ha
        exact ⟨_, List.mem_append_right _ (List.mem_singleton.mpr rfl), rfl, congrArg some hka.symm⟩
      · obtain ⟨x, hx, hxa, hxn⟩ := h.prev m hk a ha
        obtain ⟨y, hy, hya, hyn⟩ := mem_setPrev (a := n.addr) (b := some b) hx
        exact ⟨y, List.mem_append_left _ hy, hya.trans hxa, hyn.trans hxn⟩
    · cases List.mem_singleton.mp hm
      cases ha
  ends m hm := by
    have hmono : ∀ k ∈ update n.addr (Node.withPrev (some b)) ns,
        k ∈ update n.addr (Node.withPrev (some b)) ns ++ [⟨b, v, some n.addr, none⟩] :=
      fun k hk => List.mem_append_left _ hk
    rcases List.mem_append.mp hm with hm | hm
    · obtain ⟨k, hk, hm'⟩ := mem_update.mp hm
      have hka : m.addr = k.addr := by
        rcases hm' with ⟨_, rfl⟩ | ⟨_, rfl⟩
        · rfl
        · rfl
      rw [hka]
      exact (h.ends k hk).setPrev.mono hmono
    · cases List.mem_singleton.mp hm
      refine .node _ (List.mem_append_right _ (List.mem_singleton.mpr rfl)) ?_
      exact (h.ends n hn).setPrev.mono hmono

end

/-! ## nodes that go, and leave a link to be set anew -/

section
variable {ns : List (Node α)} {f : Node α → Bool} {n : Node α}

theorem update_update {a : Nat} {g h : Node α → Node α} (hg : ∀ m, (g m).addr = m.addr)
    (ns : List (Node α)) : update a h (update a g ns) = update a (fun m => h (g m)) ns := by
  rw [update, update, update, List.map_map]
  apply List.map_congr_left
  intro m _
  show (if (if m.addr = a then g m else m).addr = a then h (if m.addr = a then g m else m)
    else (if m.addr = a then g m else m)) = _
  by_cases hm : m.addr = a
  · rw [if_pos hm, if_pos hm, if_pos ((hg m).trans hm)]
  · rw [if_neg hm, if_neg hm, if_neg hm]

/-- a walk among the nodes that stay ends at `n`, if not before -/
theorem Ends.filterNext (h : Sound ns)
    (hk : ∀ m ∈ ns, f m = true → m.addr ≠ n.addr → ∀ a, m.next = some a →
      ∃ k ∈ ns, k.addr = a ∧ f k = true) {x : Option Nat} (hx : Ends ns x)
    (hs : ∀ a, x = some a → ∃ k ∈ ns, k.addr = a ∧ f k = true) :
    Ends (update n.addr (Node.withNext none) (ns.filter f)) x := by
  induction hx with
  | null => exact .null
  | node k hk' _ ih =>
    have hm := mem_filter_of_addr h.nodup hk' rfl (hs k.addr rfl)
    by_cases he : k.addr = n.addr
    · exact .node (k.withNext none) (mem_update.mpr ⟨k, hm, Or.inl ⟨he, rfl⟩⟩) .null
    · exact .node k (mem_update.mpr ⟨k, hm, Or.inr ⟨he, rfl⟩⟩)
        (ih (hk k hk' (List.mem_filter.mp hm).2 he))

/-- the forward link of `n` is the only one from a node that stays to one that goes -/
theorem Sound.filterNext (h : Sound ns) (hn : n ∈ ns)
    (hk : ∀ m ∈ ns, f m = true → m.addr ≠ n.addr → ∀ a, m.next = some a →
      ∃ k ∈ ns, k.addr = a ∧ f k = true)
    (hp : ∀ m ∈ ns, f m = true → ∀ a, m.prev = some a → ∃ k ∈ ns, k.addr = a ∧ f k = true)
    (ho : ∀ m ∈ ns, f m = true → n.next ≠ some m.addr) :
    Sound (update n.addr (Node.withNext none) (ns.filter f)) where
  nodup := by
    rw [map_addr_update (f := Node.withNext none) (fun _ => rfl)]
    exact h.nodup.sublist (List.filter_sublist.map _)
  next m hm a ha := by
    obtain ⟨k, hk', ⟨_, rfl⟩ | ⟨hne, rfl⟩⟩ := mem_update.mp hm
    · cases ha
    · obtain ⟨hm', hf⟩ := List.mem_filter.mp hk'
      obtain ⟨x, hx, hxa, hxp⟩ := h.next m hm' a ha
      obtain ⟨z, hz, hza, hzp⟩ := mem_setNext (a := n.addr) (b := none)
        (mem_filter_of_addr h.nodup hx hxa (hk m hm' hf hne a ha))
      exact ⟨z, hz, hza.trans hxa, hzp.trans hxp⟩
  prev m hm a ha := by
    obtain ⟨k, hk', hm'⟩ := mem_update.mp hm
    have hkp : k.prev = some a ∧ m.addr = k.addr := by
      rcases hm' with ⟨_, rfl⟩ | ⟨_, rfl⟩
      · exact ⟨ha, rfl⟩
      · exact ⟨ha, rfl⟩
    obtain ⟨hk'', hf⟩ := List.mem_filter.mp hk'
    obtain ⟨x, hx, hxa, hxn⟩ := h.prev k hk'' a hkp.1
    have hxf := mem_filter_of_addr h.nodup hx hxa (hp k hk'' hf a hkp.1)
    -- the link of `n` leads to no node that stays
    have hne : x.addr ≠ n.addr := by
      intro hc
      rw [eq_of_addr h.nodup hx hn hc] at hxn
      exact ho k hk'' hf hxn
    refine ⟨x, mem_update.mpr ⟨x, hxf, Or.inr ⟨hne, rfl⟩⟩, hxa, ?_⟩
    rw [hxn, hkp.2]
  ends m hm := by
    obtain ⟨k, hk', hm'⟩ := mem_update.mp hm
    have hka : m.addr = k.addr := by
      rcases hm' with ⟨_, rfl⟩ | ⟨_, rfl⟩
      · rfl
      · rfl
    obtain ⟨hk'', hf⟩ := List.mem_filter.mp hk'
    rw [hka]
    apply Ends.filterNext h hk (h.ends k hk'')
    intro a ha
    cases ha
    exact ⟨k, hk'', rfl, hf⟩

/-- the backward link of `n` is the only one from a node that stays to one that goes -/
theorem Sound.filterPrev (h : Sound ns) (hn : n ∈ ns)
    (hk : ∀ m ∈ ns, f m = true → ∀ a, m.next = some a → ∃ k ∈ ns, k.addr = a ∧ f k = true)
    (hp : ∀ m ∈ ns, f m = true → m.addr ≠ n.addr → ∀ a, m.prev = some a →
      ∃ k ∈ ns, k.addr = a ∧ f k = true)
    (ho : ∀ m ∈ ns, f m = true → n.prev ≠ some m.addr) :
    Sound (update n.addr (Node.withPrev none) (ns.filter f)) where
  nodup := by
    rw [map_addr_update (f := Node.withPrev none) (fun _ => rfl)]
    exact h.nodup.sublist (List.filter_sublist.map _)
  next m hm a ha := by
    obtain ⟨k, hk', hm'⟩ := mem_update.mp hm
    have hkn : k.next = some a ∧ m.addr = k.addr := by
      rcases hm' with ⟨_, rfl⟩ | ⟨_, rfl⟩
      · exact ⟨ha, rfl⟩
      · exact ⟨ha, rfl⟩
    obtain ⟨hk'', hf⟩ := List.mem_filter.mp hk'
    obtain ⟨x, hx, hxa, hxp⟩ := h.next k hk'' a hkn.1
    have hxf := mem_filter_of_addr h.nodup hx hxa (hk k hk'' hf a hkn.1)
    have hne : x.addr ≠ n.addr := by
      intro hc
      rw [eq_of_addr h.nodup hx hn hc] at hxp
      exact ho k hk'' hf hxp
    refine ⟨x, mem_update.mpr ⟨x, hxf, Or.inr ⟨hne, rfl⟩⟩, hxa, ?_⟩
    rw [hxp, hkn.2]
  prev m hm a ha := by
    obtain ⟨k, hk', ⟨_, rfl⟩ | ⟨hne, rfl⟩⟩ := mem_update.mp hm
    · cases ha
    · obtain ⟨hm', hf⟩ := List.mem_filter.mp hk'
      obtain ⟨x, hx, hxa, hxn⟩ := h.prev m hm' a ha
      obtain ⟨z, hz, hza, hzn⟩ := mem_setPrev (a := n.addr) (b := none)
        (mem_filter_of_addr h.nodup hx hxa (hp m hm' hf hne a ha))
      exact ⟨z, hz, hza.trans hxa, hzn.trans hxn⟩
  ends m hm := by
    obtain ⟨k, hk', hm'⟩ := mem_update.mp hm
    have hka : m.addr = k.addr := by
      rcases hm' with ⟨_, rfl⟩ | ⟨_, rfl⟩
      · rfl
      · rfl
    obtain ⟨hk'', hf⟩ := List.mem_filter.mp hk'
    rw [hka]
    apply Ends.setPrev
    apply Ends.filter h hk (h.ends k hk'')
    intro a ha
    cases ha
    exact ⟨k, hk'', rfl, hf⟩

end

/-- what the nodes hold has no part in their links -/
theorem Sound.mapVal {β : Type} {ns : List (Node α)} (h : Sound ns) {g : Node α → Node β}
    (ha : ∀ n, (g n).addr = n.addr) (hn : ∀ n, (g n).next = n.next)
    (hp : ∀ n, (g n).prev = n.prev) : Sound (ns.map g) where
  nodup := by
    rw [List.map_map]
    exact (List.map_congr_left fun n _ => ha n) ▸ h.nodup
  next m hm a he := by
    obtain ⟨n, hn', rfl⟩ := List.mem_map.mp hm
    obtain ⟨x, hx, hxa, hxp⟩ := h.next n hn' a ((hn n).symm.trans he)
    refine ⟨g x, List.mem_map_of_mem hx, (ha x).trans hxa, ?_⟩
    rw [hp, ha, hxp]
  prev m hm a he := by
    obtain ⟨n, hn', rfl⟩ := List.mem_map.mp hm
    obtain ⟨x, hx, hxa, hxn⟩ := h.prev n hn' a ((hp n).symm.trans he)
    refine ⟨g x, List.mem_map_of_mem hx, (ha x).trans hxa, ?_⟩
    rw [hn, ha, hxn]
  ends m hm := by
    obtain ⟨n, hn', rfl⟩ := List.mem_map.mp hm
    have hw : ∀ x, Ends ns x → Ends (ns.map g) x := by
      intro x hx
      induction hx with
      | null => exact .null
      | node k hk _ ih =>
        rw [← ha k]
        refine .node (g k) (List.mem_map_of_mem hk) ?_
        rw [hn]
        exact ih
    rw [ha]
    exact hw _ (h.ends n hn')

end

end Links
