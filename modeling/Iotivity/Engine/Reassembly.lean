import Iotivity.Engine.Blockwise

/-!
# Reassembly: any sequence of blocks of one payload

`oc_blockwise_handle_block` is fed with blocks `P[off .. off+len)` of a payload `P`, in any order.

* `PrefixSafe`      what is in the buffer below the write offset is `P`, the offset stays within the
                    size limit and never moves back, and a refused block changes nothing;
* `Completes`       the calls that are there in order, one behind the other, and cover `P` bring the
                    offset to the end of `P`.

A block that starts below the write offset is acknowledged and dropped, whatever its length, so a
block that ends inside a later one of another size leaves the offset where no block begins.
`Completes` needs calls that do not do that (`EndsInside`).
-/

namespace Coap
open Memory

/-- one block of a payload: its offset and its length -/
structure Call where
  offset : UInt32
  len : UInt32
deriving DecidableEq, Repr

/-- first position behind the block -/
def Call.fin (c : Call) : Nat := c.offset.toNat + c.len.toNat

/-- `P[off .. off+len)` -/
def Call.block (c : Call) (P : List UInt8) : List UInt8 :=
  (P.drop c.offset.toNat).take c.len.toNat

def Call.run (max : Nat) (P : List UInt8) (b : BlockwiseState) (c : Call) : Bool × BlockwiseState :=
  ocBlockwiseHandleBlock max b c.offset.toNat (c.block P)

/-- the buffer after a sequence of calls -/
def runCalls (max : Nat) (P : List UInt8) (b : BlockwiseState) (calls : List Call) :
    BlockwiseState :=
  calls.foldl (fun b c => (c.run max P b).2) b

/-- prefix, bound and frame of a sequence of calls -/
structure PrefixSafe (max : Nat) (P : List UInt8) (b : BlockwiseState) (calls : List Call) :
    Prop where
  stored : ∀ done, done <+: calls →
    read (runCalls max P b done).buffer 0 (runCalls max P b done).nextBlockOffset =
      P.take (runCalls max P b done).nextBlockOffset
  bounded : ∀ done, done <+: calls → (runCalls max P b done).nextBlockOffset ≤ max
  monotone : ∀ done c, done ++ [c] <+: calls →
    (runCalls max P b done).nextBlockOffset ≤ (runCalls max P b (done ++ [c])).nextBlockOffset
  refused : ∀ done c, done ++ [c] <+: calls → (c.run max P (runCalls max P b done)).1 = false →
    runCalls max P b (done ++ [c]) = runCalls max P b done

/-- consecutive blocks from position `p` to the end of `P` -/
def Covers (P : List UInt8) : Nat → List Call → Prop
  | p, [] => p = P.length
  | p, c :: cs => c.offset.toNat = p ∧ Covers P c.fin cs

/-- the block `c` ends strictly inside the block `d` -/
def EndsInside (c d : Call) : Prop := d.offset.toNat < c.fin ∧ c.fin < d.fin

/-- a cover of `P` among the calls completes the payload -/
def Completes (max : Nat) (P : List UInt8) (b : BlockwiseState) (calls : List Call) : Prop :=
  ∀ cover, cover.Sublist calls → Covers P 0 cover → P.length ≤ max →
    (runCalls max P b calls).nextBlockOffset = P.length

/-! ## one call -/

variable {max : Nat} {P : List UInt8} {b : BlockwiseState}

/-- the buffer holds a prefix of `P` that fits the limit -/
def HoldsPrefix (max : Nat) (P : List UInt8) (b : BlockwiseState) : Prop :=
  read b.buffer 0 b.nextBlockOffset = P.take b.nextBlockOffset ∧ b.nextBlockOffset ≤ max ∧
    b.nextBlockOffset ≤ P.length

theorem Call.length_block (c : Call) (h : c.fin ≤ P.length) : (c.block P).length = c.len.toNat := by
  unfold Call.block
  unfold Call.fin at h
  rw [List.length_take, List.length_drop]
  omega

/-- what one call does, below a limit that fits 32 bits -/
theorem Call.run_cases (hmax : max < 2^32) (c : Call) (h : c.fin ≤ P.length) :
    ((c.run max P b).2 = b ∧ ((c.run max P b).1 = true → c.offset.toNat < b.nextBlockOffset)) ∨
    ((c.run max P b).1 = true ∧ b.nextBlockOffset = c.offset.toNat ∧ c.fin ≤ max ∧
      (c.run max P b).2 =
        { b with buffer := write b.buffer c.offset.toNat (c.block P), nextBlockOffset := c.fin }) := by
  have hl := c.length_block h
  unfold Call.fin at h ⊢
  unfold Call.run ocBlockwiseHandleBlock
  rw [toLong_of_lt hmax, Nat.mod_eq_of_lt hmax, hl]
  split
  · exact Or.inl ⟨rfl, fun h => absurd h (by simp)⟩
  · rename_i hno
    split
    · rename_i heq
      have h1 : c.offset.toNat + c.len.toNat ≤ max := by omega
      refine Or.inr ⟨rfl, heq, h1, ?_⟩
      rw [heq, Nat.mod_eq_of_lt (by omega)]
    · exact Or.inl ⟨rfl, fun _ => by omega⟩

/-- an in-order block within the limit is copied -/
theorem Call.run_next (hmax : max < 2^32) (c : Call) (h : c.fin ≤ P.length) (hc : c.fin ≤ max)
    (hlen : c.len.toNat ≠ 0) (hb : c.offset.toNat ≤ b.nextBlockOffset) :
    c.offset.toNat = b.nextBlockOffset ∧ (c.run max P b).2.nextBlockOffset = c.fin ∨
      c.offset.toNat < b.nextBlockOffset ∧ (c.run max P b).2 = b := by
  have hl := c.length_block h
  unfold Call.fin at h hc ⊢
  unfold Call.run ocBlockwiseHandleBlock
  rw [toLong_of_lt hmax, Nat.mod_eq_of_lt hmax, hl, if_neg (by omega)]
  split
  · rename_i heq
    refine Or.inl ⟨heq.symm, ?_⟩
    show (b.nextBlockOffset + c.len.toNat) % 2^32 = _
    rw [heq, Nat.mod_eq_of_lt (by omega)]
  · exact Or.inr ⟨by omega, rfl⟩

theorem HoldsPrefix.run (hmax : max < 2^32) (c : Call) (h : c.fin ≤ P.length)
    (hb : HoldsPrefix max P b) : HoldsPrefix max P (c.run max P b).2 := by
  rcases c.run_cases hmax h (b := b) with ⟨e, _⟩ | ⟨_, hn, hc, e⟩
  · rw [e]; exact hb
  · obtain ⟨h1, _, _⟩ := hb
    rw [e]
    refine ⟨?_, hc, h⟩
    show read (write b.buffer c.offset.toNat (c.block P)) 0 c.fin = P.take c.fin
    have hl := c.length_block h
    have hstored : read (write b.buffer c.offset.toNat (c.block P)) c.offset.toNat c.len.toNat =
        c.block P := by
      have := read_write_self b.buffer c.offset.toNat (c.block P)
      rwa [hl] at this
    unfold Call.fin
    rw [read_add, read_write_disjoint _ _ _ _ _ (by omega), Nat.zero_add, hstored, ← hn, h1, hn]
    unfold Call.block
    rw [← List.take_add]

theorem Call.run_le (hmax : max < 2^32) (c : Call) (h : c.fin ≤ P.length) :
    b.nextBlockOffset ≤ (c.run max P b).2.nextBlockOffset := by
  rcases c.run_cases hmax h (b := b) with ⟨e, _⟩ | ⟨_, hn, _, e⟩
  · rw [e]
  · rw [e, hn]
    exact Nat.le_add_right _ _

/-! ## runs -/

theorem runCalls_append (max : Nat) (P : List UInt8) (b : BlockwiseState) (l l' : List Call) :
    runCalls max P b (l ++ l') = runCalls max P (runCalls max P b l) l' := by
  unfold runCalls
  rw [List.foldl_append]

theorem runCalls_snoc (max : Nat) (P : List UInt8) (b : BlockwiseState) (l : List Call) (c : Call) :
    runCalls max P b (l ++ [c]) = (c.run max P (runCalls max P b l)).2 := by
  rw [runCalls_append]
  rfl

theorem HoldsPrefix.runCalls (hmax : max < 2^32) (calls : List Call)
    (h : ∀ c ∈ calls, c.fin ≤ P.length) (hb : HoldsPrefix max P b) :
    HoldsPrefix max P (runCalls max P b calls) := by
  induction calls generalizing b with
  | nil => exact hb
  | cons c cs ih =>
    exact ih (fun d hd => h d (List.mem_cons_of_mem _ hd)) (hb.run hmax c (h c List.mem_cons_self))

theorem prefixSafe_of_lt (hmax : max < 2^32) (calls : List Call)
    (hP : ∀ c ∈ calls, c.fin ≤ P.length) (hb : b.nextBlockOffset = 0) :
    PrefixSafe max P b calls := by
  have h0 : HoldsPrefix max P b := by
    refine ⟨?_, by omega, by omega⟩
    rw [hb]
    simp
  have hdone : ∀ done, done <+: calls → HoldsPrefix max P (runCalls max P b done) :=
    fun done hd => h0.runCalls hmax done fun c hc => hP c (hd.subset hc)
  have hlast : ∀ done c, done ++ [c] <+: calls → c.fin ≤ P.length :=
    fun done c hd => hP c (hd.subset (by simp))
  refine ⟨fun done hd => (hdone done hd).1, fun done hd => (hdone done hd).2.1, ?_, ?_⟩
  · intro done c hd
    rw [runCalls_snoc]
    exact c.run_le hmax (hlast done c hd)
  · intro done c hd hf
    rw [runCalls_snoc]
    rcases c.run_cases hmax (hlast done c hd) (b := runCalls max P b done) with ⟨e, _⟩ | ⟨ht, _⟩
    · exact e
    · rw [hf] at ht
      exact absurd ht (by simp)

/-! ## completion -/

/-- `n` is not strictly inside a block of the cover -/
def Aligned (n : Nat) (cover : List Call) : Prop :=
  ∀ d ∈ cover, n ≤ d.offset.toNat ∨ d.fin ≤ n

theorem Aligned.run (hmax : max < 2^32) (c : Call) (h : c.fin ≤ P.length) (cover : List Call)
    (hc : ∀ d ∈ cover, ¬ EndsInside c d) (hb : Aligned b.nextBlockOffset cover) :
    Aligned (c.run max P b).2.nextBlockOffset cover := by
  rcases c.run_cases hmax h (b := b) with ⟨e, _⟩ | ⟨_, _, _, e⟩
  · rw [e]; exact hb
  · rw [e]
    intro d hd
    have h1 := hc d hd
    unfold EndsInside at h1
    show c.fin ≤ d.offset.toNat ∨ d.fin ≤ c.fin
    omega

/-- The induction is on the calls: the part of the cover still to come starts at `p`, and the write
offset has passed `p` without stopping inside a block of the cover. -/
theorem covers_reach (hmax : max < 2^32) (hlen : P.length ≤ max) (cover calls : List Call)
    (hsub : cover.Sublist calls) (hP : ∀ c ∈ calls, c.fin ≤ P.length) (p : Nat)
    (hcov : Covers P p cover) (hp : p ≤ b.nextBlockOffset)
    (hin : ∀ c ∈ calls, ∀ d ∈ cover, ¬ EndsInside c d) (hal : Aligned b.nextBlockOffset cover) :
    P.length ≤ (runCalls max P b calls).nextBlockOffset := by
  induction hsub generalizing p b with
  | slnil =>
    show P.length ≤ b.nextBlockOffset
    rw [← show p = P.length from hcov]
    exact hp
  | @cons cover calls c hsub ih =>
    have hc : c.fin ≤ P.length := hP c List.mem_cons_self
    exact ih (fun d hd => hP d (List.mem_cons_of_mem _ hd)) p hcov (hp.trans (c.run_le hmax hc))
      (fun d hd => hin d (List.mem_cons_of_mem _ hd))
      (hal.run hmax c hc cover (hin c List.mem_cons_self))
  | @cons_cons cover calls c hsub ih =>
    obtain ⟨hoff, hcov⟩ := hcov
    have hc : c.fin ≤ P.length := hP c List.mem_cons_self
    have hal' := hal.run hmax c hc (c :: cover) (hin c List.mem_cons_self)
    have hreach : c.fin ≤ (c.run max P b).2.nextBlockOffset := by
      by_cases h0 : c.len.toNat = 0
      · refine le_trans ?_ (c.run_le hmax hc)
        unfold Call.fin
        omega
      · rcases c.run_next hmax hc (hc.trans hlen) h0 (b := b) (by omega) with ⟨_, e⟩ | ⟨hlt, e⟩
        · exact e.ge
        · -- the block was dropped, so the offset was beyond its start, hence beyond its end
          rcases hal c List.mem_cons_self with h | h
          · omega
          · rw [e]; exact h
    exact ih (fun d hd => hP d (List.mem_cons_of_mem _ hd)) c.fin hcov hreach
      (fun d hd d' hd' => hin d (List.mem_cons_of_mem _ hd) d' (List.mem_cons_of_mem _ hd'))
      (fun d hd => hal' d (List.mem_cons_of_mem _ hd))

theorem completes_of_aligned (hmax : max < 2^32) (calls : List Call)
    (hP : ∀ c ∈ calls, c.fin ≤ P.length) (hb : b.nextBlockOffset = 0) (cover : List Call)
    (hsub : cover.Sublist calls) (hcov : Covers P 0 cover) (hlen : P.length ≤ max)
    (hin : ∀ c ∈ calls, ∀ d ∈ cover, ¬ EndsInside c d) :
    (runCalls max P b calls).nextBlockOffset = P.length := by
  have h0 : HoldsPrefix max P b := ⟨by rw [hb]; simp, by omega, by omega⟩
  have hle := (h0.runCalls hmax calls hP).2.2
  have hal : Aligned b.nextBlockOffset cover := fun d _ => Or.inl (by omega)
  have hge := covers_reach hmax hlen cover calls hsub hP 0 hcov (Nat.zero_le _) hin hal
  omega

/-! ## the main result -/

end Coap
