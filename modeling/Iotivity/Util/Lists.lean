import Iotivity.Lib.Chain

/-!
# Lists with links in their items: `oc_list.c`

The link of an item is its first field, so that an operation on a list writes into the items.  What an
operation does is right when a list comes out again: no cycle, no item twice, and the other items as
they were.  `oc_list_push` takes its item out first; `oc_list_add` and `oc_list_insert` do not.

* `push_ends`, `remove_ends`, `pop_holds`, `chop_ends`    always a list;
* `add_iff`, `insert_iff`      a list when the item is not in it yet;
* `keeps_iff`                  all operations.
-/

set_option linter.unusedSectionVars false

namespace OcList
open Intrusive Function

variable {α : Type} [DecidableEq α]

/-! ## the operations -/

/-- `oc_list_tail` -/
def ocListTail (fuel : Nat) (list : Chain α) : Option (Option α) :=
  match list.head with
  | none => some none
  | some l => (walk list.next fuel l).map some

/-- `oc_list_add` -/
def ocListAdd (fuel : Nat) (list : Chain α) (item : α) : Option (Chain α) :=
  let list := list.clear item
  (ocListTail fuel list).map fun l =>
    match l with
    | none => { list with head := some item }
    | some l => { list with next := update list.next l (some item) }

/-- `oc_list_remove` -/
def ocListRemove (fuel : Nat) (list : Chain α) (item : α) : Option (Chain α) := list.remove fuel item

/-- `oc_list_push` -/
def ocListPush (fuel : Nat) (list : Chain α) (item : α) : Option (Chain α) :=
  (ocListRemove fuel list item).map fun list => ⟨some item, update list.next item list.head⟩

/-- `oc_list_insert` -/
def ocListInsert (fuel : Nat) (list : Chain α) (previtem : Option α) (newitem : α) : Option (Chain α) :=
  match previtem with
  | none => ocListPush fuel list newitem
  | some prev =>
    let next := update list.next newitem (list.next prev)
    some { list with next := update next prev (some newitem) }

/-- `oc_list_pop` -/
def ocListPop (list : Chain α) : Option α × Chain α :=
  match list.head with
  | none => (none, list)
  | some l => (some l, { list with head := list.next l })

/-- the loop of `oc_list_chop`, at an item that is not the last -/
def chopFrom (next : α → Option α) : Nat → α → Option (α × (α → Option α))
  | 0, _ => none
  | fuel + 1, l =>
    match next l with
    | none => none
    | some r =>
      match next r with
      | none => some (r, update next l none)
      | some _ => chopFrom next fuel r

/-- `oc_list_chop` -/
def ocListChop (fuel : Nat) (list : Chain α) : Option (Option α × Chain α) :=
  match list.head with
  | none => some (none, list)
  | some l =>
    match list.next l with
    | none => some (some l, { list with head := none })
    | some _ => (chopFrom list.next fuel l).map fun x => (some x.1, { list with next := x.2 })

/-- the calls -/
inductive Op (α : Type) where
  | add (item : α)
  | push (item : α)
  | insert (previtem : Option α) (newitem : α)
  | remove (item : α)
  | pop
  | chop

def Op.run (fuel : Nat) (list : Chain α) : Op α → Option (Chain α)
  | add item => ocListAdd fuel list item
  | push item => ocListPush fuel list item
  | insert previtem newitem => ocListInsert fuel list previtem newitem
  | remove item => ocListRemove fuel list item
  | pop => some (ocListPop list).2
  | chop => (ocListChop fuel list).map Prod.snd

/-! ## what is asked of them -/

/-- the item that a call is about -/
def Op.subject (l : List α) : Op α → Option α
  | add item => some item
  | push item => some item
  | insert _ newitem => some newitem
  | remove item => some item
  | pop => l.head?
  | chop => l.getLast?

/-- all items but one, in their order -/
def others (x : Option α) (l : List α) : List α := l.filter fun y => some y ≠ x

/-- the call ends with a list, and the other items are in it as they were -/
def Keeps (list : Chain α) (l : List α) (op : Op α) : Prop :=
  ∃ list' l', Ends (fun fuel => op.run fuel list) list' ∧ list'.Holds l' ∧
    others (op.subject l) l' = others (op.subject l) l

variable {list : Chain α} {l : List α} {a p : α}

/-! ## calls that always leave a list -/

theorem remove_ends (h : list.Holds l) (a : α) :
    ∃ list', Ends (fun fuel => ocListRemove fuel list a) list' ∧ list'.Holds (l.erase a) := by
  obtain ⟨list', hr, hh⟩ := Chain.remove_holds (a := a) h (Nat.le_refl _)
  exact ⟨list', (list.remove_steady a).ends hr, hh⟩

theorem push_ends (h : list.Holds l) (a : α) :
    ∃ list', Ends (fun fuel => ocListPush fuel list a) list' ∧ list'.Holds (a :: l.erase a) := by
  obtain ⟨list', hr, hh⟩ := remove_ends h a
  exact ⟨_, hr.map _, hh.cons (List.Nodup.not_mem_erase h.nodup)⟩

theorem pop_holds (h : list.Holds l) : (ocListPop list).1 = l.head? ∧ (ocListPop list).2.Holds l.tail := by
  have hp := h.path
  unfold ocListPop
  cases hh : list.head with
  | none =>
    rw [hh] at hp
    cases l with
    | nil => exact ⟨rfl, h⟩
    | cons b l => cases hp.1
  | some b =>
    rw [hh] at hp
    cases l with
    | nil => cases hp
    | cons c l =>
      obtain rfl := Option.some.inj hp.1
      exact ⟨rfl, hp.2, h.nodup.of_cons⟩

theorem chopFrom_succ {next next' : α → Option α} {fuel : Nat} {p r : α}
    (h : chopFrom next fuel p = some (r, next')) : chopFrom next (fuel + 1) p = some (r, next') := by
  induction fuel generalizing p with
  | zero => cases h
  | succ fuel ih =>
    unfold chopFrom at h ⊢
    cases hn : next p with
    | none =>
      rw [hn] at h
      cases h
    | some b =>
      rw [hn] at h
      dsimp only at h ⊢
      cases hb : next b with
      | none =>
        rw [hb] at h
        exact h
      | some c =>
        rw [hb] at h
        exact ih h

/-- behind an item that is not the last, the last one is cut off -/
theorem chopFrom_path {next : α → Option α} {p b : α} (h : Path next (next p) (b :: l))
    (hn : (p :: b :: l).Nodup) :
    ∃ r next', chopFrom next (l.length + 1) p = some (r, next') ∧ (b :: l).getLast? = some r ∧
      Path next' (next' p) (b :: l).dropLast ∧ ∀ c, c ∉ b :: l → c ≠ p → next' c = next c := by
  induction l generalizing p b with
  | nil =>
    unfold chopFrom
    rw [h.1]
    dsimp only
    rw [show next b = none from h.2]
    refine ⟨b, _, rfl, rfl, ?_, fun c _ hc => update_of_ne hc _ _⟩
    exact update_self p none next
  | cons d l ih =>
    obtain ⟨hp, hn⟩ := List.nodup_cons.mp hn
    obtain ⟨r, next', hr, hlast, hpath, hframe⟩ := ih h.2 hn
    refine ⟨r, next', ?_, hlast, ?_, fun c hc hcp => ?_⟩
    · unfold chopFrom
      rw [h.1]
      dsimp only
      rw [h.2.1]
      exact hr
    · rw [List.dropLast_cons_of_ne_nil (List.cons_ne_nil _ _)]
      refine ⟨?_, hpath⟩
      rw [hframe p (fun hm => hp (List.mem_cons_of_mem b hm)) (fun he => hp (he ▸ List.mem_cons_self)), h.1]
    · exact hframe c (fun hm => hc (List.mem_cons_of_mem b hm)) (fun he => hc (he ▸ List.mem_cons_self))

theorem chop_steady (list : Chain α) : Steady fun fuel => ocListChop fuel list := by
  intro fuel y h
  change ocListChop (fuel + 1) list = some y
  unfold ocListChop at h ⊢
  cases hh : list.head with
  | none =>
    rw [hh] at h
    exact h
  | some b =>
    rw [hh] at h
    dsimp only at h ⊢
    cases hb : list.next b with
    | none =>
      rw [hb] at h
      exact h
    | some c =>
      rw [hb] at h
      dsimp only at h ⊢
      obtain ⟨x, hx, hy⟩ := Option.map_eq_some_iff.mp h
      rw [chopFrom_succ hx, Option.map_some, hy]

theorem chop_ends (h : list.Holds l) :
    ∃ list', Ends (fun fuel => ocListChop fuel list) (l.getLast?, list') ∧ list'.Holds l.dropLast := by
  have hnodup : l.dropLast.Nodup := h.nodup.sublist (List.dropLast_sublist l)
  suffices hs : ∃ n list', ocListChop n list = some (l.getLast?, list') ∧
      Path list'.next list'.head l.dropLast by
    obtain ⟨n, list', hr, hp⟩ := hs
    exact ⟨list', (chop_steady list).ends hr, hp, hnodup⟩
  have hp := h.path
  have hn := h.nodup
  unfold ocListChop
  cases hh : list.head with
  | none =>
    rw [hh] at hp
    cases l with
    | nil => exact ⟨0, list, rfl, hh⟩
    | cons b l => cases hp.1
  | some b =>
    rw [hh] at hp
    cases l with
    | nil => cases hp
    | cons c l =>
      obtain rfl := Option.some.inj hp.1
      dsimp only
      cases l with
      | nil =>
        rw [show list.next b = none from hp.2]
        exact ⟨0, _, rfl, rfl⟩
      | cons d l =>
        rw [show list.next b = some d from hp.2.1]
        obtain ⟨r, next', hr, hlast, hpath, -⟩ := chopFrom_path hp.2 hn
        rw [List.getLast?_cons_cons, hlast]
        refine ⟨l.length + 1, ⟨some b, next'⟩, ?_, ?_⟩
        · dsimp only
          rw [hr]
          rfl
        · rw [List.dropLast_cons_of_ne_nil (List.cons_ne_nil _ _)]
          exact ⟨rfl, hpath⟩

/-! ## the other items -/

theorem others_cons_self (a : α) (l : List α) : others (some a) (a :: l) = others (some a) l := by
  unfold others
  rw [List.filter_cons_of_neg]
  simp

theorem others_append (x : Option α) (l m : List α) : others x (l ++ m) = others x l ++ others x m :=
  List.filter_append _ _

theorem others_of_not_mem (h : a ∉ l) : others (some a) l = l := by
  refine List.filter_eq_self.mpr fun b hb => ?_
  rw [decide_eq_true_iff]
  exact fun he => h (Option.some.inj he ▸ hb)

/-- an item of a list, as it stands in between the others -/
theorem others_mid {m : List α} (hl : a ∉ l) (hm : a ∉ m) : others (some a) (l ++ a :: m) = l ++ m := by
  rw [others_append, others_cons_self, others_of_not_mem hl, others_of_not_mem hm]

theorem others_erase (h : l.Nodup) : others (some a) (l.erase a) = others (some a) l := by
  unfold others
  rw [h.erase_eq_filter, List.filter_filter]
  refine List.filter_congr fun b _ => ?_
  by_cases hb : b = a <;> simp [hb]

/-! ## calls that may leave none -/

theorem ocListAdd_eq (fuel : Nat) : ocListAdd fuel list a = list.add fuel a := by
  obtain ⟨head, next⟩ := list
  unfold ocListAdd ocListTail Chain.add Chain.clear
  cases head with
  | none => rfl
  | some b =>
    dsimp only
    cases walk (update next a none) fuel b <;> rfl

theorem add_ends (h : list.Holds l) (ha : a ∉ l) :
    ∃ list', Ends (fun fuel => ocListAdd fuel list a) list' ∧ list'.Holds (l ++ [a]) := by
  obtain ⟨list', hr, hh⟩ := Chain.add_holds h ha (Nat.le_refl _)
  refine ⟨list', ?_, hh⟩
  simp only [ocListAdd_eq]
  exact (list.add_steady a).ends hr

/-- a list that is cut behind an item -/
theorem path_cut {next : α → Option α} {x : Option α} {u w : List α} (h : Path next x (u ++ a :: w))
    (hu : a ∉ u) : Path (update next a none) x (u ++ [a]) := by
  induction u generalizing x with
  | nil => exact ⟨h.1, show update next a none a = none from update_self a none next⟩
  | cons b u ih =>
    obtain ⟨hab, hu⟩ := not_or.mp (mt List.mem_cons.mpr hu)
    refine ⟨h.1, ?_⟩
    rw [update_of_ne (Ne.symm hab)]
    exact ih h.2 hu

/-- an item that links to itself is on no list, as far as the links up to it are the old ones -/
theorem not_holds_of_loop {u w m : List α} (list' : Chain α) (h : list.Holds (u ++ a :: w))
    (hhead : list'.head = list.head) (hu : ∀ b ∈ u, list'.next b = list.next b)
    (hloop : list'.next a = some a) : ¬ list'.Holds m := by
  intro h'
  obtain ⟨k, -, hk⟩ := h.path.follow hu (hhead ▸ h'.path)
  exact Path.not_loop hk hloop

/-- an item that is added again becomes the end of the list, and links to itself -/
theorem add_twice {u w : List α} (h : list.Holds (u ++ a :: w)) :
    ∃ list', Ends (fun fuel => ocListAdd fuel list a) list' ∧ ∀ m, ¬ list'.Holds m := by
  have hau : a ∉ u := fun hm => (List.nodup_cons.mp (List.nodup_middle.mp h.nodup)).1
    (List.mem_append_left w hm)
  have hcut := path_cut h.path hau
  cases hh : list.head with
  | none =>
    rw [hh] at hcut
    exact absurd hcut.head (by simp)
  | some b =>
    rw [hh] at hcut
    obtain ⟨z, hz, hlast⟩ := hcut.walk (Nat.le_refl _)
    obtain rfl : a = z := Option.some.inj (List.getLast?_concat.symm.trans hlast)
    have hr : list.add (u ++ [a]).length a =
        some ⟨some b, update (update list.next a none) a (some a)⟩ := by
      unfold Chain.add
      rw [hh]
      dsimp only
      rw [hz]
    refine ⟨⟨some b, update (update list.next a none) a (some a)⟩, ?_, fun m => ?_⟩
    · simp only [ocListAdd_eq]
      exact (list.add_steady a).ends hr
    · refine not_holds_of_loop _ h hh.symm (fun c hc => ?_) (update_self _ _ _)
      have hca : c ≠ a := fun he => hau (he ▸ hc)
      exact (update_of_ne hca _ _).trans (update_of_ne hca _ _)

/-- the links behind `oc_list_insert` -/
def insertNext (next : α → Option α) (p a : α) : α → Option α := update (update next a (next p)) p (some a)

theorem insertNext_of_ne {next : α → Option α} {b : α} (hp : b ≠ p) (ha : b ≠ a) :
    insertNext next p a b = next b := by
  unfold insertNext
  rw [update_of_ne hp, update_of_ne ha]

theorem insertNext_prev (next : α → Option α) : insertNext next p a p = some a := update_self _ _ _

theorem insertNext_new {next : α → Option α} (h : a ≠ p) : insertNext next p a a = next p := by
  unfold insertNext
  rw [update_of_ne h, update_self]

theorem insert_ends : Ends (fun fuel => ocListInsert fuel list (some p) a)
    { list with next := insertNext list.next p a } := Ends.const _

theorem path_insert {next : α → Option α} {x : Option α} {u w : List α} (h : Path next x (u ++ p :: w))
    (hn : (u ++ p :: w).Nodup) (ha : a ∉ u ++ p :: w) :
    Path (insertNext next p a) x (u ++ p :: a :: w) := by
  induction u generalizing x with
  | nil =>
    obtain ⟨hap, haw⟩ := not_or.mp (mt List.mem_cons.mpr ha)
    refine ⟨h.1, insertNext_prev next, ?_⟩
    rw [insertNext_new hap]
    refine h.2.congr fun b hb => ?_
    have hbp : b ≠ p := fun he => (List.nodup_cons.mp hn).1 (he ▸ hb)
    have hba : b ≠ a := fun he => haw (he ▸ hb)
    exact insertNext_of_ne hbp hba
  | cons c u ih =>
    obtain ⟨hac, ha⟩ := not_or.mp (mt List.mem_cons.mpr ha)
    obtain ⟨hc, hn⟩ := List.nodup_cons.mp hn
    have hcp : c ≠ p := fun he => hc (he ▸ by simp)
    refine ⟨h.1, ?_⟩
    rw [insertNext_of_ne hcp (Ne.symm hac)]
    exact ih h.2 hn ha

/-- an item of the list that is put behind an earlier one closes a cycle -/
theorem insert_later {u m w k : List α} (h : list.Holds (u ++ p :: (m ++ a :: w))) (hap : a ≠ p) :
    ¬ (Chain.mk list.head (insertNext list.next p a)).Holds k := by
  intro h'
  have hnp := (List.nodup_cons.mp (List.nodup_middle.mp h.nodup)).1
  have hassoc : u ++ p :: (m ++ a :: w) = (u ++ p :: m) ++ a :: w := by
    rw [List.append_assoc, List.cons_append]
  have hna := (List.nodup_cons.mp (List.nodup_middle.mp (hassoc ▸ h.nodup))).1
  have hsame : ∀ b, b ∈ u ∨ b ∈ m → insertNext list.next p a b = list.next b := by
    intro b hb
    have hbp : b ≠ p := by
      rintro rfl
      exact hnp (by rcases hb with hb | hb <;> simp [hb])
    have hba : b ≠ a := by
      rintro rfl
      exact hna (by rcases hb with hb | hb <;> simp [hb])
    exact insertNext_of_ne hbp hba
  -- from `p` the links go to `a`, from there along `m` and to `a` again
  obtain ⟨k1, -, hk1⟩ := h.path.follow (fun b hb => hsame b (.inl hb)) h'.path
  cases k1 with
  | nil => cases hk1
  | cons c k1 =>
    obtain rfl : p = c := Option.some.inj hk1.1
    have hk2 := hk1.2
    rw [insertNext_prev] at hk2
    cases k1 with
    | nil => cases hk2
    | cons d k2 =>
      obtain rfl : a = d := Option.some.inj hk2.1
      have hk3 := hk2.2
      rw [insertNext_new hap] at hk3
      obtain ⟨k3, rfl, hk4⟩ := h.path.behind.follow (fun b hb => hsame b (.inr hb)) hk3
      have hlen := congrArg List.length (hk2.unique hk4)
      rw [List.length_cons, List.length_append] at hlen
      omega

/-- an item that is put behind another one -/
theorem insert_behind (h : list.Holds l) (hp : p ∈ l) (ha : a ∉ l) : Keeps list l (.insert (some p) a) := by
  obtain ⟨u, w, rfl⟩ := List.append_of_mem hp
  have hpath := path_insert h.path h.nodup ha
  refine ⟨_, u ++ p :: a :: w, insert_ends, ⟨hpath, ?_⟩, ?_⟩
  · have hperm : (u ++ p :: a :: w).Nodup ↔ (a :: (u ++ p :: w)).Nodup := by
      rw [List.append_cons, List.append_cons u p w]
      exact List.nodup_middle
    exact hperm.mpr (List.nodup_cons.mpr ⟨ha, h.nodup⟩)
  · show others (some a) (u ++ p :: a :: w) = others (some a) (u ++ p :: w)
    rw [List.append_cons, List.append_cons u p w, others_append, others_cons_self, ← others_append]

/-- behind an item that is not in the list: its links are left as they are -/
theorem insert_outside (h : list.Holds l) (hp : p ∉ l) (hcase : a ∉ l ∨ list.next p = list.next a) :
    Keeps list l (.insert (some p) a) := by
  have hsame : ∀ b ∈ l, insertNext list.next p a b = list.next b := by
    intro b hb
    have hbp : b ≠ p := fun he => hp (he ▸ hb)
    by_cases hba : b = a
    · subst hba
      rw [insertNext_new hbp]
      exact hcase.resolve_left (not_not.mpr hb)
    · exact insertNext_of_ne hbp hba
  exact ⟨_, l, insert_ends, ⟨h.path.congr hsame, h.nodup⟩, rfl⟩

/-- an item of the list can only be put behind one that is not in it -/
theorem insert_inside {k : List α} (h : list.Holds l) (ha : a ∈ l)
    (hh : (Chain.mk list.head (insertNext list.next p a)).Holds k)
    (ho : others (some a) k = others (some a) l) : p ∉ l ∧ list.next p = list.next a := by
  obtain ⟨u, w, rfl⟩ := List.append_of_mem ha
  have hn : a ∉ u ++ w := (List.nodup_cons.mp (List.nodup_middle.mp h.nodup)).1
  obtain ⟨hau, haw⟩ := not_or.mp (mt List.mem_append.mpr hn)
  have hap : a ≠ p := by
    rintro rfl
    have hsame : ∀ b ∈ u, insertNext list.next a a b = list.next b := by
      intro b hb
      have hba : b ≠ a := fun he => hau (he ▸ hb)
      exact insertNext_of_ne hba hba
    exact not_holds_of_loop ⟨list.head, insertNext list.next a a⟩ h rfl hsame
      (insertNext_prev list.next) hh
  have hpu : p ∉ u := by
    intro hp
    obtain ⟨u, m, rfl⟩ := List.append_of_mem hp
    rw [List.append_assoc, List.cons_append] at h
    exact insert_later h hap hh
  have hsame : ∀ b ∈ u, insertNext list.next p a b = list.next b := by
    intro b hb
    have hbp : b ≠ p := fun he => hpu (he ▸ hb)
    have hba : b ≠ a := fun he => hau (he ▸ hb)
    exact insertNext_of_ne hbp hba
  obtain ⟨k, rfl, hk⟩ := h.path.follow hsame hh.path
  cases k with
  | nil => cases hk
  | cons c k =>
    obtain rfl : a = c := Option.some.inj hk.1
    have hbehind := hk.2
    rw [insertNext_new hap] at hbehind
    have hn' := (List.nodup_cons.mp (List.nodup_middle.mp hh.nodup)).1
    obtain ⟨-, hak⟩ := not_or.mp (mt List.mem_append.mpr hn')
    have hkw : k = w := by
      rw [others_mid hau hak, others_mid hau haw] at ho
      exact List.append_cancel_left ho
    subst hkw
    have hpk : p ∉ k := fun hp => hak (hbehind.next_mem hp (insertNext_prev _))
    refine ⟨fun hp => ?_, hbehind.head.trans h.path.behind.head.symm⟩
    rcases List.mem_append.mp hp with hp | hp
    · exact hpu hp
    · rcases List.mem_cons.mp hp with rfl | hp
      · exact hap rfl
      · exact hpk hp

theorem insert_iff (h : list.Holds l) :
    Keeps list l (.insert (some p) a) ↔ a ∉ l ∨ (p ∉ l ∧ list.next p = list.next a) := by
  constructor
  · rintro ⟨list', l', hr, hh, ho⟩
    obtain rfl := insert_ends.unique hr
    rw [or_iff_not_imp_left, not_not]
    exact fun ha => insert_inside h ha hh ho
  · intro hcase
    by_cases hp : p ∈ l
    · exact insert_behind h hp (hcase.resolve_right fun hc => hc.1 hp)
    · exact insert_outside h hp (hcase.imp_right And.right)

theorem add_iff (h : list.Holds l) : Keeps list l (.add a) ↔ a ∉ l := by
  constructor
  · rintro ⟨list', l', hr, hh, -⟩ ha
    obtain ⟨u, w, rfl⟩ := List.append_of_mem ha
    obtain ⟨list'', hr', hno⟩ := add_twice h
    obtain rfl := hr.unique hr'
    exact hno l' hh
  · intro ha
    obtain ⟨list', hr, hh⟩ := add_ends h ha
    refine ⟨list', l ++ [a], hr, hh, ?_⟩
    show others (some a) (l ++ [a]) = others (some a) l
    rw [others_append, others_cons_self]
    exact List.append_nil _

/-! ## all calls -/

/-- the item is not in the list when it is added or inserted; or `oc_list_insert` leaves the list's own
links alone, with an item outside of the list to go behind -/
def Op.Fits (list : Chain α) (l : List α) : Op α → Prop
  | add item => item ∉ l
  | insert (some prev) newitem => newitem ∉ l ∨ (prev ∉ l ∧ list.next prev = list.next newitem)
  | _ => True

theorem others_head (l : List α) : others l.head? l.tail = others l.head? l := by
  cases l with
  | nil => rfl
  | cons b l => exact (others_cons_self b l).symm

theorem others_last (l : List α) : others l.getLast? l.dropLast = others l.getLast? l := by
  rcases List.eq_nil_or_concat' l with rfl | ⟨u, b, rfl⟩
  · rfl
  · rw [List.getLast?_concat, List.dropLast_concat, others_append, others_cons_self]
    exact (List.append_nil _).symm

/-- **When a list stays a list**: on every list without a cycle, for every call and every item. -/
theorem keeps_iff (h : list.Holds l) (op : Op α) : Keeps list l op ↔ op.Fits list l := by
  have push : ∀ item, others (some item) (item :: l.erase item) = others (some item) l := by
    intro item
    rw [others_cons_self, others_erase h.nodup]
  cases op with
  | add item => exact add_iff h
  | push item =>
    obtain ⟨list', hr, hh⟩ := push_ends h item
    exact iff_of_true ⟨list', _, hr, hh, push item⟩ trivial
  | insert previtem newitem =>
    cases previtem with
    | none =>
      obtain ⟨list', hr, hh⟩ := push_ends h newitem
      exact iff_of_true ⟨list', _, hr, hh, push newitem⟩ trivial
    | some prev => exact insert_iff h
  | remove item =>
    obtain ⟨list', hr, hh⟩ := remove_ends h item
    exact iff_of_true ⟨list', _, hr, hh, others_erase h.nodup⟩ trivial
  | pop => exact iff_of_true ⟨_, _, Ends.const _, (pop_holds h).2, others_head l⟩ trivial
  | chop =>
    obtain ⟨list', hr, hh⟩ := chop_ends h
    exact iff_of_true ⟨list', _, hr.map Prod.snd, hh, others_last l⟩ trivial

/-- the list 1, 2 -/
def twoItems : Chain Nat := ⟨some 1, update (fun _ => none) 1 (some 2)⟩

theorem twoItems_holds : twoItems.Holds [1, 2] := ⟨⟨rfl, rfl, rfl⟩, by decide⟩

theorem keeps_iff_twoItems : twoItems.Holds [1, 2] ∧
    (Keeps twoItems [1, 2] (.insert (some 1) 3) ↔ Op.Fits twoItems [1, 2] (.insert (some 1) 3)) :=
  ⟨twoItems_holds, keeps_iff twoItems_holds _⟩

/-- the first of two items is added again -/
theorem add_again : twoItems.Holds [1, 2] ∧ ¬ Keeps twoItems [1, 2] (.add 1) := by
  refine ⟨twoItems_holds, ?_⟩
  rw [add_iff twoItems_holds]
  decide

end OcList
