import Iotivity.Lib.Memory

/-!
# Serialisers with an optional buffer

A serialiser gets a buffer pointer that may be NULL and returns how many cells it produced.  With
a NULL pointer it only counts (a dry run), otherwise it also stores.

* `Writer α`    such a serialiser;
* `Emits w l`   `w` counts `l.length` in both modes and stores exactly `l`, nothing else.

`Emits` is closed under running one serialiser behind another (`Emits.seq`) and under a test that
skips it (`Emits.guard`), so a whole serialiser is handled piece by piece.
-/

namespace Memory

variable {α : Type}

/-- buffer pointer (`none` is NULL) and memory to count and memory -/
abbrev Writer (α : Type) : Type := Option Nat → (Nat → α) → Nat × (Nat → α)

/-- `l` stored at the buffer pointer, if there is one -/
def store (buf : Option Nat) (m : Nat → α) (l : List α) : Nat → α :=
  match buf with
  | none => m
  | some p => write m p l

/-- the buffer pointer `n` cells further -/
def advance (buf : Option Nat) (n : Nat) : Option Nat := buf.map (· + n)

@[simp] theorem store_none (m : Nat → α) (l : List α) : store none m l = m := rfl
@[simp] theorem store_some (p : Nat) (m : Nat → α) (l : List α) :
    store (some p) m l = write m p l := rfl
@[simp] theorem advance_none (n : Nat) : advance none n = none := rfl
@[simp] theorem advance_some (p n : Nat) : advance (some p) n = some (p + n) := rfl

@[simp] theorem advance_zero (buf : Option Nat) : advance buf 0 = buf := by
  cases buf <;> rfl

theorem advance_advance (buf : Option Nat) (a b : Nat) :
    advance (advance buf a) b = advance buf (a + b) := by
  cases buf with
  | none => rfl
  | some p => simp [Nat.add_assoc]

@[simp] theorem store_nil (buf : Option Nat) (m : Nat → α) : store buf m [] = m := by
  cases buf <;> simp

theorem store_append (buf : Option Nat) (m : Nat → α) (a b : List α) :
    store buf m (a ++ b) = store (advance buf a.length) (store buf m a) b := by
  cases buf with
  | none => rfl
  | some p => exact write_append m p a b

/-- `w` counts `l.length` and stores exactly `l` -/
def Emits (w : Writer α) (l : List α) : Prop :=
  ∀ buf m, w buf m = (l.length, store buf m l)

/-- `w₂` behind `w₁`; the counts add up -/
def seq (w₁ w₂ : Writer α) : Writer α := fun buf m =>
  let (n₁, m₁) := w₁ buf m
  let (n₂, m₂) := w₂ (advance buf n₁) m₁
  (n₁ + n₂, m₂)

/-- `w` if the test holds, otherwise nothing -/
def guard (c : Bool) (w : Writer α) : Writer α := fun buf m =>
  if c then w buf m else (0, m)

theorem Emits.seq {w₁ w₂ : Writer α} {l₁ l₂ : List α} (h₁ : Emits w₁ l₁) (h₂ : Emits w₂ l₂) :
    Emits (Memory.seq w₁ w₂) (l₁ ++ l₂) := by
  intro buf m
  simp only [Memory.seq, h₁ buf m, h₂ (advance buf l₁.length), List.length_append, store_append]

theorem Emits.guard {w : Writer α} {l : List α} (c : Bool) (h : Emits w l) :
    Emits (Memory.guard c w) (if c then l else []) := by
  intro buf m
  cases c
  · simp [Memory.guard]
  · simp [Memory.guard, h buf m]

end Memory
