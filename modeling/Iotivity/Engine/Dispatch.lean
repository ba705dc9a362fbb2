import Iotivity.Engine.Snapshot

/-!
# Slices that are handed out

`oc_blockwise_dispatch_block` gives the whole payload size for a payload that is shorter than what is
asked for, whatever the offset.  That is right for offset `0` only, so it is up to the callers that
no other offset meets a payload shorter than a block.

* `DispatchSite`       the calls of the function: which offset and which size each of them asks for;
* `DispatchSite.far`   an offset is `0`, or a block away from `0`, after wrapping to 32 bits as well;
* `dispatched_slice`   what is handed out lies in the payload, and the next offset is where it ends.
-/

namespace Coap
open Memory

/-! ## calls -/

/-- a Block option as the parser leaves it -/
abbrev ParsedBlock := { o : BlockOption // o.Parsed }

/-- the calls of `oc_blockwise_dispatch_block`; `engine.c` has the first five -/
inductive DispatchSite where
  /-- `dispatchResponse`: the block a Block2 request asks for -/
  | laterBlock (block2 : ParsedBlock)
  /-- `wholeResponse`: all of a new representation -/
  | whole
  /-- `firstBlock`: the first block of a new representation, the request with or without Block2 -/
  | firstBlock (block2 : Option ParsedBlock)
  /-- `continueRequest`: the block behind the one that Block1 of a response is about -/
  | nextRequest (block1 : ParsedBlock)
  /-- `continueRequest`: the first block again, after `4.13` -/
  | tooLarge (message : Message)
  /-- `openBlocks`, for an observer or a separate response with its `block2_size` -/
  | opened (block2Size : UInt16)
  /-- `fillRequest`: the first block of a request of the client -/
  | request
  /-- offset `0`, whatever the size -/
  | any (size : UInt32)

def DispatchSite.offset (cfg : Config) : DispatchSite → Nat
  | laterBlock o => (blockParams cfg (some o.1)).offset.toNat
  | nextRequest o =>
    ((blockParams cfg (some o.1)).offset.toNat + (blockParams cfg (some o.1)).size.toNat) % 2^32
  | _ => 0

def DispatchSite.size (cfg : Config) (b : BlockwiseState) : DispatchSite → Nat
  | laterBlock o => (blockParams cfg (some o.1)).size.toNat
  | whole => (b.payloadSize + 1) % 2^32
  | firstBlock o => (blockParams cfg (o.map Subtype.val)).size.toNat
  | nextRequest o => (blockParams cfg (some o.1)).size.toNat
  | tooLarge message => (mtuSize cfg message).toNat
  | opened block2Size => block2Size.toNat
  | request => cfg.blockSize
  | any size => size.toNat

def DispatchSite.dispatch (cfg : Config) (site : DispatchSite) (b : BlockwiseState) :
    Option (List UInt8) × BlockwiseState :=
  ocBlockwiseDispatchBlock b (site.offset cfg) (site.size cfg b)

/-! ## offsets -/

/-- one block further, in 32 bits: at `0` again, or a block away from `0` -/
theorem blockParams_next (cfg : Config) {o : BlockOption} (ho : o.Parsed) :
    ((blockParams cfg (some o)).offset.toNat + (blockParams cfg (some o)).size.toNat) % 2^32 = 0 ∨
      (blockParams cfg (some o)).size.toNat ≤
        ((blockParams cfg (some o)).offset.toNat + (blockParams cfg (some o)).size.toNat) % 2^32 := by
  have hsize := (blockParams_size cfg ho).1
  have hle : (blockParams cfg (some o)).size.toNat ≤ o.size.toNat := by omega
  have hlt : (blockParams cfg (some o)).offset.toNat < 2^32 := UInt32.toNat_lt _
  -- the offset leaves room for a block as the peer counts it, so the sum is at most `2^32`
  have hroom : (blockParams cfg (some o)).offset.toNat + o.size.toNat ≤ 2^32 := by
    show o.offset.toNat + o.size.toNat ≤ 2^32
    rcases ho.fields.2 with rfl | ⟨e, he, hz⟩
    · decide
    · obtain ⟨⟨n, hn⟩, k, hk⟩ := ho.aligned he hz
      have hkn : k < n := by
        have : o.size.toNat * k < o.size.toNat * n := by
          rw [← hk, ← hn]
          exact o.offset.toNat_lt
        exact Nat.lt_of_mul_lt_mul_left this
      calc o.offset.toNat + o.size.toNat = o.size.toNat * (k + 1) := by rw [hk, Nat.mul_succ]
        _ ≤ o.size.toNat * n := Nat.mul_le_mul_left _ hkn
        _ = 2^32 := hn.symm
  rcases Nat.lt_or_eq_of_le (Nat.le_trans (Nat.add_le_add_left hle _) hroom) with h | h
  · right
    rw [Nat.mod_eq_of_lt h]
    exact Nat.le_add_left _ _
  · left
    rw [h, Nat.mod_self]

/-- a call never asks for an offset within the first block but not at its start -/
theorem DispatchSite.far (cfg : Config) (b : BlockwiseState) (site : DispatchSite) :
    site.offset cfg = 0 ∨ site.size cfg b ≤ site.offset cfg := by
  cases site with
  | laterBlock o => exact blockParams_offset cfg o.2
  | nextRequest o => exact blockParams_next cfg o.2
  | whole => exact Or.inl rfl
  | firstBlock o => exact Or.inl rfl
  | tooLarge m => exact Or.inl rfl
  | opened z => exact Or.inl rfl
  | request => exact Or.inl rfl
  | any z => exact Or.inl rfl

/-! ## slices -/

/-- a slice within the payload of a buffer, and the offset behind it -/
structure HandedOut (b b' : BlockwiseState) (offset n : Nat) (payload : List UInt8) : Prop where
  bytes : payload = read b.buffer offset n
  bound : offset + n ≤ b.payloadSize
  moved : b' = { b with nextBlockOffset := offset + n }

theorem take_read (m : Nat → UInt8) (p n k : Nat) :
    (read m p n).take k = read m p (min k n) := by
  rcases Nat.le_total k n with h | h
  · rw [read_take _ _ _ _ h, Nat.min_eq_left h]
  · rw [List.take_of_length_le (by rw [length_read]; exact h), Nat.min_eq_right h]

/-- what is handed out is the payload from the offset on, up to the size that is asked for -/
theorem dispatched_slice (cfg : Config) (site : DispatchSite) {b b' : BlockwiseState}
    {payload : List UInt8} (hb : b.payloadSize < 2^32)
    (h : site.dispatch cfg b = (some payload, b')) :
    ∃ n ≤ site.size cfg b, HandedOut b b' (site.offset cfg) n payload ∧
      b'.nextBlockOffset ≤ b'.payloadSize := by
  obtain ⟨hlt, hp, rfl⟩ := dispatch_slice (site.far cfg b) h
  generalize site.offset cfg = off at hlt hp ⊢
  generalize site.size cfg b = size at hp ⊢
  have hend : off + min size (b.payloadSize - off) ≤ b.payloadSize := by omega
  refine ⟨min size (b.payloadSize - off), Nat.min_le_left _ _, ⟨?_, hend, ?_⟩, ?_⟩
  · rw [hp]
    unfold BlockwiseState.payload
    rw [read_drop _ _ _ _ (by omega), Nat.zero_add, take_read]
  · rw [Nat.mod_eq_of_lt (by omega)]
  · rw [Nat.mod_eq_of_lt (by omega)]
    exact hend

/-- the last block number there is: the block behind it starts at `2^32`, and so at `0` again -/
theorem dispatched_slice_wrapped :
    ∃ n ≤ 16, HandedOut { freshBuffer with payloadSize := 5 }
      { freshBuffer with payloadSize := 5, nextBlockOffset := 5 } 0 n [0, 0, 0, 0, 0] ∧ 5 ≤ 5 :=
  dispatched_slice defaultConfig
    (.nextRequest ⟨parseBlockOption 0xFFFFFFF0, Or.inr ⟨0xFFFFFFF0, rfl⟩⟩)
    (b := { freshBuffer with payloadSize := 5 }) (by decide) rfl

end Coap
