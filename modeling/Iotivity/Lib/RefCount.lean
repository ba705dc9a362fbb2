import Mathlib.Logic.Function.Basic
import Mathlib.Data.List.Count

/-!
# Objects with a counter of their holders

Objects are known by their address, and every allocation has an address of its own.  An object keeps
the number of its holders in eight bits and is given back when the number becomes zero.

* `Heap`             the objects in use, and how often each address has been given back;
* `Balanced held h`  the counters agree with `held`, and an object without holders has been given
                     back once;
* `Balanced.alloc`, `.retain`, `.drop`, `.release`   what the operations do to `held`.
-/

namespace RefCount

/-- `misused` is set when an object is used that is not there -/
structure Heap where
  count : Nat → Option UInt8
  returned : Nat → Nat
  fresh : Nat
  misused : Bool

def Heap.init : Heap := ⟨fun _ => none, fun _ => 0, 0, false⟩

/-- a new object, held once -/
def Heap.alloc (h : Heap) : Nat × Heap :=
  (h.fresh, { h with count := Function.update h.count h.fresh (some 1), fresh := h.fresh + 1 })

def Heap.misuse (h : Heap) : Heap := { h with misused := true }

/-- the object is looked at -/
def Heap.touch (a : Nat) (h : Heap) : Heap := if (h.count a).isSome then h else h.misuse

/-- one more holder -/
def Heap.retain (a : Nat) (h : Heap) : Heap :=
  match h.count a with
  | none => h.misuse
  | some c => { h with count := Function.update h.count a (some (c + 1)) }

/-- one holder less, and no more than that -/
def Heap.drop (a : Nat) (h : Heap) : Heap :=
  match h.count a with
  | none => h.misuse
  | some c => { h with count := Function.update h.count a (some (c - 1)) }

/-- one holder less; without holders the object is given back -/
def Heap.release (a : Nat) (h : Heap) : Heap :=
  match h.count a with
  | none => h.misuse
  | some c =>
    if c - 1 = 0 then
      { h with
        count := Function.update h.count a none
        returned := Function.update h.returned a (h.returned a + 1) }
    else { h with count := Function.update h.count a (some (c - 1)) }

structure Balanced (held : Nat → Nat) (h : Heap) : Prop where
  live : ∀ a c, h.count a = some c → c.toNat = held a ∧ 0 < held a ∧ h.returned a = 0
  gone : ∀ a, h.count a = none → held a = 0
  once : ∀ a, a < h.fresh → h.count a = none → h.returned a = 1
  beyond : ∀ a, h.fresh ≤ a → h.count a = none ∧ h.returned a = 0
  proper : h.misused = false

variable {held held' : Nat → Nat} {h : Heap} {a : Nat}

theorem Balanced.init : Balanced (fun _ => 0) Heap.init :=
  ⟨fun _ _ hc => absurd hc (by simp [Heap.init]), fun _ _ => rfl, fun _ hlt => absurd hlt (Nat.not_lt_zero _),
    fun _ _ => ⟨rfl, rfl⟩, rfl⟩

theorem Balanced.congr (hb : Balanced held h) (hh : ∀ b, held' b = held b) : Balanced held' h := by
  rw [funext hh]
  exact hb

/-- what is held is there -/
theorem Balanced.held_live (hb : Balanced held h) (ha : 0 < held a) :
    ∃ c, h.count a = some c ∧ c.toNat = held a := by
  cases hc : h.count a with
  | none =>
    rw [hb.gone a hc] at ha
    exact absurd ha (Nat.lt_irrefl 0)
  | some c => exact ⟨c, rfl, (hb.live a c hc).1⟩

theorem Balanced.lt_fresh (hb : Balanced held h) (ha : 0 < held a) : a < h.fresh := by
  by_contra hle
  rw [hb.gone a (hb.beyond a (Nat.le_of_not_lt hle)).1] at ha
  exact Nat.lt_irrefl 0 ha

theorem Balanced.touch (hb : Balanced held h) (ha : 0 < held a) : h.touch a = h := by
  obtain ⟨c, hc, _⟩ := hb.held_live ha
  unfold Heap.touch
  rw [hc]
  rfl

theorem Balanced.alloc (hb : Balanced held h)
    (hh : ∀ b, held' b = if b = h.fresh then 1 else held b) : Balanced held' h.alloc.2 := by
  obtain ⟨hnew, hret⟩ := hb.beyond h.fresh (Nat.le_refl _)
  have hother : ∀ b, b ≠ h.fresh → h.alloc.2.count b = h.count b := fun b hne =>
    Function.update_of_ne hne _ _
  have hself : h.alloc.2.count h.fresh = some 1 := Function.update_self _ _ _
  refine ⟨fun b c hc => ?_, fun b hc => ?_, fun b hlt hc => ?_, fun b hle => ?_, hb.proper⟩
  · by_cases hne : b = h.fresh
    · subst hne
      rw [hself] at hc
      obtain rfl := Option.some.inj hc
      rw [hh, if_pos rfl]
      exact ⟨rfl, Nat.one_pos, hret⟩
    · rw [hother b hne] at hc
      rw [hh, if_neg hne]
      exact hb.live b c hc
  · by_cases hne : b = h.fresh
    · subst hne
      rw [hself] at hc
      cases hc
    · rw [hother b hne] at hc
      rw [hh, if_neg hne]
      exact hb.gone b hc
  · by_cases hne : b = h.fresh
    · subst hne
      rw [hself] at hc
      cases hc
    · rw [hother b hne] at hc
      exact hb.once b (Nat.lt_of_le_of_ne (Nat.le_of_lt_succ hlt) hne) hc
  · have hlt : h.fresh < b := hle
    rw [hother b (Nat.ne_of_gt hlt)]
    exact hb.beyond b (Nat.le_of_lt hlt)

/-- a counter is set to a number of holders that is not zero -/
theorem Balanced.set (hb : Balanced held h) {c : UInt8} (ha : 0 < held a) (hc : c.toNat = held' a)
    (hpos : 0 < held' a) (hh : ∀ b, b ≠ a → held' b = held b) :
    Balanced held' { h with count := Function.update h.count a (some c) } := by
  obtain ⟨c', hc', _⟩ := hb.held_live ha
  have hlt := hb.lt_fresh ha
  refine ⟨fun b d hd => ?_, fun b hd => ?_, fun b hb' hd => ?_, fun b hle => ?_, hb.proper⟩
  · by_cases hne : b = a
    · subst hne
      obtain rfl := Option.some.inj ((Function.update_self b (some c) h.count).symm.trans hd)
      exact ⟨hc, hpos, (hb.live b c' hc').2.2⟩
    · rw [hh b hne]
      exact hb.live b d ((Function.update_of_ne hne _ _).symm.trans hd)
  · by_cases hne : b = a
    · subst hne
      cases (Function.update_self b (some c) h.count).symm.trans hd
    · rw [hh b hne]
      exact hb.gone b ((Function.update_of_ne hne _ _).symm.trans hd)
  · by_cases hne : b = a
    · subst hne
      cases (Function.update_self b (some c) h.count).symm.trans hd
    · exact hb.once b hb' ((Function.update_of_ne hne _ _).symm.trans hd)
  · have hne : b ≠ a := Nat.ne_of_gt (Nat.lt_of_lt_of_le hlt hle)
    exact ⟨(Function.update_of_ne hne _ _).trans (hb.beyond b hle).1, (hb.beyond b hle).2⟩

/-- one more holder, if the counter can count it -/
theorem Balanced.retain (hb : Balanced held h) (ha : 0 < held a) (hmax : h.count a ≠ some 255)
    (hh : ∀ b, held' b = if b = a then held b + 1 else held b) : Balanced held' (h.retain a) := by
  obtain ⟨c, hc, hn⟩ := hb.held_live ha
  have hself : held' a = held a + 1 := by rw [hh, if_pos rfl]
  have hne : c ≠ 255 := fun h => hmax (by rw [hc, h])
  have hsucc : (c + 1).toNat = c.toNat + 1 := by
    have h1 : c.toNat ≠ 255 := fun h => hne (UInt8.toNat_inj.mp h)
    have h2 := c.toNat_lt
    rw [UInt8.toNat_add]
    show (c.toNat + 1) % 2^8 = c.toNat + 1
    omega
  unfold Heap.retain
  rw [hc]
  exact hb.set ha (by rw [hsucc, hn, hself]) (by omega) fun b hb' => by rw [hh, if_neg hb']

theorem toNat_pred {c : UInt8} (h : 0 < c.toNat) : (c - 1).toNat = c.toNat - 1 := by
  have h1 := c.toNat_lt
  rw [UInt8.toNat_sub]
  show (2^8 - 1 + c.toNat) % 2^8 = c.toNat - 1
  omega

/-- one holder less, of several -/
theorem Balanced.drop (hb : Balanced held h) (ha : 1 < held a)
    (hh : ∀ b, held' b = if b = a then held b - 1 else held b) : Balanced held' (h.drop a) := by
  obtain ⟨c, hc, hn⟩ := hb.held_live (Nat.lt_of_succ_lt ha)
  have hself : held' a = held a - 1 := by rw [hh, if_pos rfl]
  unfold Heap.drop
  rw [hc]
  refine hb.set (Nat.lt_of_succ_lt ha) ?_ (by omega) fun b hb' => by rw [hh, if_neg hb']
  rw [toNat_pred (by omega), hn, hself]

/-- the last holder is gone and the object is given back -/
theorem Balanced.giveBack (hb : Balanced held h) (ha : 0 < held a) (hzero : held' a = 0)
    (hh : ∀ b, b ≠ a → held' b = held b) :
    Balanced held'
      { h with
        count := Function.update h.count a none
        returned := Function.update h.returned a (h.returned a + 1) } := by
  obtain ⟨c, hc, _⟩ := hb.held_live ha
  have hret := (hb.live a c hc).2.2
  refine ⟨fun b d hd => ?_, fun b hd => ?_, fun b hlt hd => ?_, fun b hle => ?_, hb.proper⟩
  · by_cases hne : b = a
    · subst hne
      cases (Function.update_self b none h.count).symm.trans hd
    · rw [hh b hne]
      obtain ⟨h1, h2, h3⟩ := hb.live b d ((Function.update_of_ne hne _ _).symm.trans hd)
      exact ⟨h1, h2, (Function.update_of_ne hne _ _).trans h3⟩
  · by_cases hne : b = a
    · rw [hne]
      exact hzero
    · rw [hh b hne]
      exact hb.gone b ((Function.update_of_ne hne _ _).symm.trans hd)
  · by_cases hne : b = a
    · subst hne
      exact (Function.update_self _ _ _).trans (by rw [hret])
    · have hold := hb.once b hlt ((Function.update_of_ne hne _ _).symm.trans hd)
      exact (Function.update_of_ne hne _ _).trans hold
  · have hne : b ≠ a := Nat.ne_of_gt (Nat.lt_of_lt_of_le (hb.lt_fresh ha) hle)
    obtain ⟨h1, h2⟩ := hb.beyond b hle
    exact ⟨(Function.update_of_ne hne _ _).trans h1, (Function.update_of_ne hne _ _).trans h2⟩

/-- one holder less -/
theorem Balanced.release (hb : Balanced held h) (ha : 0 < held a)
    (hh : ∀ b, held' b = if b = a then held b - 1 else held b) : Balanced held' (h.release a) := by
  obtain ⟨c, hc, hn⟩ := hb.held_live ha
  have hself : held' a = held a - 1 := by rw [hh, if_pos rfl]
  have hpred := toNat_pred (c := c) (by omega)
  have hother : ∀ b, b ≠ a → held' b = held b := fun b hb' => by rw [hh, if_neg hb']
  unfold Heap.release
  rw [hc]
  dsimp only
  by_cases hz : c - 1 = 0
  · rw [if_pos hz]
    rw [hz, show (0 : UInt8).toNat = 0 from rfl] at hpred
    exact hb.giveBack ha (by omega) hother
  · rw [if_neg hz]
    have hpos : (c - 1).toNat ≠ 0 := fun h0 => hz (UInt8.toNat_inj.mp h0)
    exact hb.set ha (by rw [hpred, hn, hself]) (by omega) hother

end RefCount
