import Iotivity.Engine.Delivery
import Iotivity.Engine.Exchange
import Iotivity.Engine.Labels

/-!
# Uploads in blocks

A request with Block1 carries one block of a payload.  The server keeps the blocks in a request buffer
that it finds again by the key of the exchange, and hands them to the entity handler with the last one.

* `transfer e m tr`   the blocks of the upload that the last request with block number zero has opened;
* `Isolated tr`       every payload that a handler has got is made of blocks of the transfer that was
                      open, one behind the other from the first one on;
* `Resumable`         a block zero finds no buffer with blocks of an earlier transfer, a buffer that is
                      found has the path of the request, and blocks are stored as they are;
* `isolated_run`      a run of such steps is isolated.

A buffer is not cleared when a transfer starts again, and what is below its write offset is taken for
a repetition: `not_isolated`.
-/

namespace Coap
open Memory Keyed History

/-! ## definitions -/

/-- where the block of a request begins, as its Block1 option says -/
def blockStart (m : Message) : Nat :=
  match coapGetHeaderBlock1 m with
  | some o => o.num.toNat * o.size.toNat
  | none => 0

def joined (bs : List Message) : List UInt8 := bs.flatMap fun m => m.payload

/-- every block begins where the blocks in front of it end -/
def Consecutive (bs : List Message) : Prop :=
  Always (fun before m => blockStart m = (joined before).length) bs

/-- a block with number zero opens a transfer, any other one belongs to the one that is open -/
def uploadStep (e : Endpoint) (m : Message) (t : List Message) : Event → List Message
  | .accepted e' m' =>
    match coapGetHeaderBlock1 m' with
    | none => t
    | some o => if Akin e m e' m' then if o.num = 0 then [m'] else t ++ [m'] else t
  | _ => t

/-- the blocks of the transfer that is open in the exchange of a request -/
def transfer (e : Endpoint) (m : Message) (tr : List Event) : List Message :=
  tr.foldl (uploadStep e m) []

/-- the payload is put together from blocks of the transfer, the last of them the request itself
unless its block had been there before -/
def OfTransfer (m : Message) (payload : List UInt8) (t : List Message) : Prop :=
  ∃ bs, bs.Sublist t ∧ Consecutive bs ∧ payload = joined bs ∧
    (bs.getLast? = some m ∨ blockStart m < payload.length)

/-- what handlers get for requests with Block1 -/
def Isolated (tr : List Event) : Prop :=
  Always (fun before ev =>
    match ev with
    | .produced e m payload _ _ =>
      (coapGetHeaderBlock1 m).isSome → OfTransfer m payload (transfer e m before)
    | _ => True) tr

/-- the buffer that a request finds can go on with it -/
structure CanResume (m : Message) (o : BlockOption) (x : BlockwiseState) : Prop where
  path : x.href = coapGetHeaderUriPath m
  restart : o.num = 0 → x.nextBlockOffset = 0 ∨ read x.buffer 0 x.nextBlockOffset = m.payload

/-- the payload of a block is as long as the option and `OC_BLOCK_SIZE` allow, and ends where an
`int` can count -/
structure BlockFits (cfg : Config) (m : Message) (o : BlockOption) : Prop where
  size : m.payload.length ≤ min o.size.toNat cfg.blockSize
  stop : blockStart m + m.payload.length < 2^31

def Resumable (cfg : Config) (s : State) : Step → Prop
  | .receive env msg => ∀ m, Handles cfg env msg s m →
    match coapGetHeaderBlock1 m, coapGetHeaderBlock2 m with
    | some o, _ => BlockFits cfg m o ∧
        ∀ x, findServerRequest msg.endpoint m s = some x → CanResume m o x
    | none, some _ => m.payload.length < 2^31
    | none, none => True
  | _ => True

/-! ## blocks that follow each other -/

section
variable {bs : List Message} {m : Message}

theorem joined_append (bs bs' : List Message) : joined (bs ++ bs') = joined bs ++ joined bs' :=
  List.flatMap_append

theorem joined_singleton (m : Message) : joined [m] = m.payload := List.append_nil _

theorem consecutive_nil : Consecutive [] := always_nil _

theorem Consecutive.snoc (h : Consecutive bs) (hm : blockStart m = (joined bs).length) :
    Consecutive (bs ++ [m]) := by
  refine always_append.mpr ⟨h, always_singleton.mpr ?_⟩
  rw [List.append_nil]
  exact hm

end

/-! ## the open transfer -/

section
variable {e e' : Endpoint} {m m' : Message} {tr : List Event}

theorem transfer_append (e : Endpoint) (m : Message) (tr es : List Event) :
    transfer e m (tr ++ es) = es.foldl (uploadStep e m) (transfer e m tr) :=
  List.foldl_append

/-- events behind the one that reports the request do not count -/
theorem transfer_idle {es : List Event} (h : ∀ e' m', Event.accepted e' m' ∉ es) :
    transfer e m (tr ++ es) = transfer e m tr := by
  rw [transfer_append]
  refine foldl_idle (fun ev hin t => ?_) _
  cases ev with
  | accepted e' m' => exact absurd hin (h e' m')
  | _ => rfl

theorem uploadStep_accepted {o : BlockOption} (ho : coapGetHeaderBlock1 m' = some o)
    (t : List Message) : uploadStep e m t (.accepted e' m')
      = if Akin e m e' m' then if o.num = 0 then [m'] else t ++ [m'] else t := by
  simp only [uploadStep, ho]

theorem uploadStep_plain (ho : coapGetHeaderBlock1 m' = none) (t : List Message) :
    uploadStep e m t (.accepted e' m') = t := by
  simp only [uploadStep, ho]

/-- there is one open transfer in an exchange -/
theorem Akin.transfer (h : Akin e m e' m') (tr : List Event) :
    transfer e m tr = transfer e' m' tr := by
  have hstep : uploadStep e m = uploadStep e' m' := by
    funext t ev
    cases ev with
    | accepted e1 m1 =>
      cases ho : coapGetHeaderBlock1 m1 with
      | none => rw [uploadStep_plain ho, uploadStep_plain ho]
      | some o =>
        rw [uploadStep_accepted ho, uploadStep_accepted ho]
        exact if_congr h.congr rfl rfl
    | _ => rfl
  unfold Coap.transfer
  rw [hstep]

end

/-! ## what a buffer holds -/

/-- the bytes below the write offset are blocks of the transfer -/
def Holds (b : BlockwiseState) (t : List Message) : Prop :=
  b.nextBlockOffset < 2^31 ∧ ∃ bs, bs.Sublist t ∧ Consecutive bs ∧
    joined bs = read b.buffer 0 b.nextBlockOffset

section
variable {b b' : BlockwiseState} {t t' : List Message} {m : Message} {o : BlockOption} {max : Nat}

theorem Holds.of_zero (h : b.nextBlockOffset = 0) (t : List Message) : Holds b t := by
  refine ⟨by omega, [], List.nil_sublist t, consecutive_nil, ?_⟩
  rw [h]
  rfl

theorem Holds.mono (h : Holds b t) (ht : t.Sublist t') : Holds b t' := by
  obtain ⟨h1, bs, h2, h3⟩ := h
  exact ⟨h1, bs, h2.trans ht, h3⟩

theorem Holds.congr (h : Holds b t) (hn : b'.nextBlockOffset = b.nextBlockOffset)
    (hb : b'.buffer = b.buffer) : Holds b' t := by
  unfold Holds at h ⊢
  rw [hn, hb]
  exact h

/-- the buffer holds blocks of the transfer, among them the one of this request -/
def HoldsBlock (b : BlockwiseState) (m : Message) (t : List Message) : Prop :=
  b.nextBlockOffset < 2^31 ∧ ∃ bs, bs.Sublist t ∧ Consecutive bs ∧
    joined bs = read b.buffer 0 b.nextBlockOffset ∧
    (bs.getLast? = some m ∨ blockStart m < b.nextBlockOffset)

theorem HoldsBlock.holds (h : HoldsBlock b m t) : Holds b t := by
  obtain ⟨h1, bs, h2, h3, h4, _⟩ := h
  exact ⟨h1, bs, h2, h3, h4⟩

theorem HoldsBlock.congr (h : HoldsBlock b m t) (hn : b'.nextBlockOffset = b.nextBlockOffset)
    (hb : b'.buffer = b.buffer) : HoldsBlock b' m t := by
  unfold HoldsBlock at h ⊢
  rw [hn, hb]
  exact h

/-- what is handed to the entity handler -/
theorem HoldsBlock.ofTransfer (h : HoldsBlock b m t) {l : Locals} (hl : l.requestBuffer = some b)
    (hsize : b.payloadSize = b.nextBlockOffset) : OfTransfer m (requestPayload l) t := by
  obtain ⟨h1, bs, h2, h3, h4, h5⟩ := h
  have hpay : requestPayload l = read b.buffer 0 b.nextBlockOffset := by
    unfold requestPayload BlockwiseState.payload
    rw [hl]
    dsimp only
    rw [hsize]
    split
    · rfl
    · rw [show b.nextBlockOffset = 0 by omega]
      rfl
  refine ⟨bs, h2, h3, hpay.trans h4.symm, ?_⟩
  rw [hpay, length_read]
  exact h5

/-- a block that is taken is stored at the write offset, or lies below it -/
theorem handleBlock_true {offset : Nat} {incoming : List UInt8}
    (h : ocBlockwiseHandleBlock max b offset incoming = (true, b')) :
    (b.nextBlockOffset = offset ∧ b' =
      { b with
        buffer := write b.buffer b.nextBlockOffset incoming
        nextBlockOffset := (b.nextBlockOffset + incoming.length) % 2^32 }) ∨
      (offset < b.nextBlockOffset ∧ b' = b) := by
  unfold ocBlockwiseHandleBlock at h
  split at h
  · exact absurd (Prod.mk.inj h).1 (by simp)
  · rename_i hno
    split at h
    · rename_i heq
      exact Or.inl ⟨heq, (Prod.mk.inj h).2.symm⟩
    · exact Or.inr ⟨by omega, (Prod.mk.inj h).2.symm⟩

/-- a block of a transfer is added to those of the transfer -/
theorem Holds.handle (h : Holds b t) (hstop : blockStart m + m.payload.length < 2^31)
    (hh : ocBlockwiseHandleBlock max b (blockStart m) m.payload = (true, b')) :
    HoldsBlock b' m (t ++ [m]) := by
  obtain ⟨h1, bs, h2, h3, h4⟩ := h
  have hlen : (joined bs).length = b.nextBlockOffset := by rw [h4, length_read]
  rcases handleBlock_true hh with ⟨heq, rfl⟩ | ⟨hlt, rfl⟩
  · -- the next block
    have hmod : (b.nextBlockOffset + m.payload.length) % 2^32
        = b.nextBlockOffset + m.payload.length := Nat.mod_eq_of_lt (by omega)
    unfold HoldsBlock
    dsimp only
    rw [hmod]
    refine ⟨by omega, bs ++ [m], h2.append (List.Sublist.refl _), h3.snoc (by omega), ?_,
      Or.inl List.getLast?_concat⟩
    rw [joined_append, joined_singleton, read_add, Nat.zero_add,
      read_write_disjoint _ _ _ _ _ (by omega), read_write_self, h4]
  · -- a block that is there already
    exact ⟨h1, bs, h2.trans (List.sublist_append_left t [m]), h3, h4, Or.inr hlt⟩

/-- the first block comes again, and nothing has followed it so far -/
theorem holdsBlock_repeated (h0 : blockStart m = 0) (hlt : m.payload.length < 2^31)
    (hb : read b.buffer 0 b.nextBlockOffset = m.payload) : HoldsBlock b m [m] := by
  have hn : b.nextBlockOffset = m.payload.length := by rw [← hb, length_read]
  refine ⟨by omega, [m], List.Sublist.refl _, ?_, ?_, Or.inl rfl⟩
  · exact consecutive_nil.snoc h0
  · rw [joined_singleton, hb]

end

/-! ## a request with Block1 -/

section
variable {cfg : Config} {env : Env} {endpoint : Endpoint} {m : Message} {o : BlockOption}
  {s : State} {l : Locals} {x : BlockwiseState}

/-- the buffer of a request with Block1: one that is there, or a new one for block zero -/
structure Upload (endpoint : Endpoint) (m : Message) (num : UInt32) (l l1 : Locals)
    (x : BlockwiseState) : Prop where
  buffer : l1.requestBuffer = some x
  others : ∀ b ∈ l1.state.requests, b = x ∨ b ∈ l.state.requests
  found : findServerRequest endpoint m l.state = some x ∨
    findServerRequest endpoint m l.state = none ∧ num = 0 ∧ x.nextBlockOffset = 0 ∧
      x.endpoint = endpoint ∧ x.href = coapGetHeaderUriPath m ∧ x.uriQuery = m.uriQuery ∧
      x.method = m.code

theorem uploadBuffer_cases (env : Env) (endpoint : Endpoint) (m : Message) (num : UInt32)
    (l : Locals) :
    (∃ x, Upload endpoint m num l (uploadBuffer env endpoint m num l) x) ∨
      findServerRequest endpoint m l.state = none ∧
        (uploadBuffer env endpoint m num l).requestBuffer = none ∧
        (uploadBuffer env endpoint m num l).state.requests = l.state.requests := by
  unfold uploadBuffer
  split
  · rename_i x hf
    exact Or.inl ⟨x, rfl, fun b hb => Or.inr hb, Or.inl hf⟩
  · rename_i hf
    split
    · rename_i hnum
      rcases allocRequest_cases env endpoint m l with ⟨_, e⟩ | ⟨_, e⟩
      · rw [e]
        exact Or.inr ⟨hf, rfl, rfl⟩
      · rw [e]
        dsimp only
        rw [setQuery_eq _ _ rfl]
        refine Or.inl ⟨_, rfl, fun b hb => ?_, Or.inr ⟨hf, hnum, rfl, rfl, rfl, rfl, rfl⟩⟩
        rcases mem_put hb with rfl | ⟨hin, hne⟩
        · exact Or.inl rfl
        · rcases List.mem_append.mp hin with hin | hin
          · exact Or.inr hin
          · rw [List.mem_singleton.mp hin] at hne
            exact absurd rfl hne
    · exact Or.inr ⟨hf, rfl, rfl⟩

/-- what a request with Block1 does to its buffer -/
inductive Block1Branch (cfg : Config) (m : Message) (p : BlockOption) (l1 : Locals)
    (x : BlockwiseState) (r : Locals × Label) : Prop where
  | refused (h : r = (l1, .initResetMessage))
  | taken (x1 x2 : BlockwiseState)
      (hh : ocBlockwiseHandleBlock cfg.maxAppDataSize x p.offset.toNat
        (m.payload.take (min (incomingBlockLen m % 2^16) p.size.toNat)) = (true, x1))
      (hkey : SameKey x1 x2)
      (hsame : x2.nextBlockOffset = x1.nextBlockOffset ∧ x2.buffer = x1.buffer)
      (hb : r.1.requestBuffer = some x2)
      (hreq : r.1.state.requests = put BlockwiseState.id x2 l1.state.requests)
      (hsize : r.2 = .requestHandler → x2.payloadSize = x2.nextBlockOffset)

theorem block1Request_cases (cfg : Config) (env : Env) (endpoint : Endpoint) (m : Message)
    (p : BlockOption) {l : Locals}
    (hx : (uploadBuffer env endpoint m p.num l).requestBuffer = some x) :
    Block1Branch cfg m p (uploadBuffer env endpoint m p.num l) x
      (block1Request cfg env endpoint m p l) := by
  unfold block1Request
  dsimp only
  generalize uploadBuffer env endpoint m p.num l = l1 at hx ⊢
  rw [hx]
  dsimp only
  rcases hh : ocBlockwiseHandleBlock cfg.maxAppDataSize x p.offset.toNat
    (m.payload.take (min (incomingBlockLen m % 2^16) p.size.toNat)) with ⟨_ | _, x1⟩
  · exact .refused rfl
  · dsimp only
    split
    · exact .taken x1 { x1 with refCount := 1 } hh ⟨rfl, rfl, rfl, rfl, rfl, rfl⟩ ⟨rfl, rfl⟩ rfl rfl
        fun h => absurd h (by simp)
    · exact .taken x1 { x1 with payloadSize := x1.nextBlockOffset, refCount := 0 } hh
        ⟨rfl, rfl, rfl, rfl, rfl, rfl⟩ ⟨rfl, rfl⟩ rfl rfl fun _ => rfl

/-- blocks that fit are stored as they are, where the option says -/
theorem BlockFits.stored (h : BlockFits cfg m o) (hg : Genuine m)
    (ho : coapGetHeaderBlock1 m = some o) :
    (blockParams cfg (some o)).offset.toNat = blockStart m ∧
      m.payload.take (min (incomingBlockLen m % 2^16) (blockParams cfg (some o)).size.toNat)
        = m.payload := by
  have hpar := hg.getBlock1 ho
  have hsize := (blockParams_size cfg hpar).1
  have hle := h.size
  have hstop := h.stop
  have hbs := cfg.blockSize_le
  have hstart : blockStart m = o.num.toNat * o.size.toNat := by
    unfold blockStart
    rw [ho]
  constructor
  · show o.offset.toNat = _
    rw [hpar.fields.1, hstart, Nat.mod_eq_of_lt (by omega)]
  · refine List.take_of_length_le ?_
    unfold incomingBlockLen
    rw [hsize]
    omega

end

/-! ## requests without Block1 -/

section
variable {cfg : Config} {env : Env} {endpoint : Endpoint} {m : Message} {b : BlockwiseState}

/-- a buffer that has been made for a payload is not left behind -/
theorem storePayload_left {refCount : UInt8} {l : Locals}
    (hsize : refCount = 0 ∨ 0 < incomingBlockLen m ∧ incomingBlockLen m < 2^31)
    (hb : b ∈ (storePayload cfg env endpoint m refCount l).1.state.requests) (href : b.refCount ≠ 0)
    (hown : ∀ x, (storePayload cfg env endpoint m refCount l).1.requestBuffer = some x →
      b.id = x.id → (storePayload cfg env endpoint m refCount l).2 = .sendMessage ∨
        (storePayload cfg env endpoint m refCount l).2 = .requestHandler ∧
          ¬ (0 < x.payloadSize ∧ x.payloadSize < 2^31)) : b ∈ l.state.requests := by
  have halloc : b ∈ (l.allocRequest env endpoint m).state.requests →
      ((l.allocRequest env endpoint m).requestBuffer = some b ∧ b.id = l.state.fresh) ∨
        b ∈ l.state.requests := by
    intro hb
    rcases allocRequest_cases env endpoint m l with ⟨_, e⟩ | ⟨_, e⟩
    · rw [e] at hb
      exact Or.inr hb
    · rw [e] at hb ⊢
      rcases List.mem_append.mp hb with hb | hb
      · exact Or.inr hb
      · rw [List.mem_singleton.mp hb]
        exact Or.inl ⟨rfl, rfl⟩
  rcases storePayload_cases cfg env endpoint m refCount l with ⟨_, _, e⟩ | ⟨_, e⟩
  · rw [e] at hb hown
    have hid : (filledRequest env endpoint m refCount l.state.fresh).id = l.state.fresh := by
      unfold filledRequest
      rw [setQuery_eq _ _ rfl]
      rfl
    rcases mem_put hb with rfl | ⟨hin, hne⟩
    · rcases hsize with h0 | hpos
      · exact absurd h0 href
      · exact ((hown _ rfl rfl).resolve_left (by simp)).2.elim hpos
    · exact (halloc hin).resolve_left fun h => hne (h.2.trans hid.symm)
  · rw [e] at hb hown
    refine (halloc hb).resolve_left fun h => ?_
    exact absurd (hown b h.1 rfl) (by simp)

/-- a request without Block1 leaves no request buffer behind -/
theorem plain_requests (hb1 : coapGetHeaderBlock1 m = none)
    (hsize : ∀ o, coapGetHeaderBlock2 m = some o → m.payload.length < 2^31) (l : Locals) :
    ∀ b ∈ (processRequest cfg env endpoint m l).1.requests, b ∈ l.state.requests := by
  intro b hb
  obtain ⟨h1, h2, h3⟩ := processRequest_requests cfg env endpoint m l rfl b hb
  have hlocal : l.state.requests = (l.emit (.accepted endpoint m)).state.requests := rfl
  rw [hlocal]
  generalize l.emit (.accepted endpoint m) = l1 at h1 h3 ⊢
  unfold requestBranch at h1 h3
  rw [hb1] at h1 h3
  cases hb2 : coapGetHeaderBlock2 m with
  | none =>
    rw [hb2] at h1 h3
    unfold regularRequest at h1 h3
    dsimp only at h1 h3
    split at h1
    · split at h1
      · rename_i hle hpos
        simp only [if_pos hle, if_pos hpos] at h3
        exact storePayload_left (Or.inl rfl) h1 h2 h3
      · exact h1
    · exact h1
  | some o =>
    have hlen : incomingBlockLen m < 2^31 := by
      have := hsize o hb2
      unfold incomingBlockLen
      omega
    rw [hb2] at h1 h3
    unfold block2Request at h1 h3
    dsimp only at h1 h3
    split at h1
    · unfold dispatchResponse at h1
      split at h1
      · exact h1
      · exact h1
    · rename_i hf
      simp only [hf] at h3
      unfold openTransfer at h1 h3
      split at h1
      · split at h1
        · split at h1
          · exact h1
          · rename_i hnum hpos _ hq
            simp only [if_pos hnum, if_pos hpos, hq] at h3
            have hin := storePayload_left (Or.inr ⟨hpos, hlen⟩) h1 h2 h3
            exact hin
        · exact h1
      · exact h1

end

/-! ## the invariant -/

/-- The request buffers of a server hold blocks of the transfers that are open, and an exchange has
one buffer. -/
structure Uploads (s : State) (tr : List Event) : Prop where
  holds : ∀ b ∈ s.requests, ∀ e m, (requestLookup e m).Owns b → Holds b (transfer e m tr)
  single : ∀ b ∈ s.requests, ∀ b' ∈ s.requests, ∀ e m, (requestLookup e m).Owns b →
    (requestLookup e m).Owns b' → b'.id = b.id

section
variable {cfg : Config} {env : Env} {endpoint : Endpoint} {m : Message} {o : BlockOption}
  {s s' : State} {l : Locals} {tr tr' : List Event}

theorem uploads_init (currentMid : UInt16) : Uploads (State.init currentMid) [] :=
  ⟨fun _ hb => absurd hb List.not_mem_nil, fun _ hb => absurd hb List.not_mem_nil⟩

/-- uploads that nobody touches -/
theorem Uploads.quiet (h : Uploads s tr) (hq : QuietRequests s s')
    (ht : ∀ e m, transfer e m tr' = transfer e m tr) : Uploads s' tr' := by
  -- a buffer of an exchange comes from one that was there, with the same contents
  have hold : ∀ b ∈ s'.requests, ∀ e m, (requestLookup e m).Owns b →
      ∃ x ∈ s.requests, SameUpload x b ∧ (requestLookup e m).Owns x := by
    intro b hb e m hown
    rcases hq b hb with hc | ⟨x, hx, hsame⟩
    · exact absurd (hc.symm.trans hown.2.2.2.2) (by simp [requestLookup])
    · exact ⟨x, hx, hsame, hsame.key.owns hown⟩
  refine ⟨fun b hb e m hown => ?_, fun b hb b' hb' e m hown hown' => ?_⟩
  · obtain ⟨x, hx, hsame, hx1⟩ := hold b hb e m hown
    obtain ⟨h1, h2⟩ := hsame.content hx1.2.2.2.2
    rw [ht]
    exact (h.holds x hx e m hx1).congr h1 h2
  · obtain ⟨x, hx, hsame, hx1⟩ := hold b hb e m hown
    obtain ⟨y, hy, hsame', hy1⟩ := hold b' hb' e m hown'
    rw [hsame.key.id, hsame'.key.id]
    exact h.single x hx y hy e m hx1 hy1

theorem Uploads.congr (h : Uploads s tr) (ht : ∀ e m, transfer e m tr' = transfer e m tr) :
    Uploads s tr' := h.quiet (QuietRequests.refl s) ht

/-- the transfer after a block -/
theorem transfer_block (ho : coapGetHeaderBlock1 m = some o) (e1 : Endpoint) (m1 : Message) :
    transfer e1 m1 (tr ++ [.accepted endpoint m])
      = if Akin e1 m1 endpoint m then
          if o.num = 0 then [m] else transfer e1 m1 tr ++ [m]
        else transfer e1 m1 tr := by
  rw [transfer_append, List.foldl_cons, List.foldl_nil, uploadStep_accepted ho]

/-- the buffer that has taken the block holds blocks of the transfer -/
theorem Uploads.stored (h : Uploads s tr) (ho : coapGetHeaderBlock1 m = some o)
    (hfit : BlockFits cfg m o)
    (hcan : ∀ x, findServerRequest endpoint m s = some x → CanResume m o x)
    {x x1 : BlockwiseState}
    (hx : findServerRequest endpoint m s = some x ∨ o.num = 0 ∧ x.nextBlockOffset = 0)
    (hh : ocBlockwiseHandleBlock cfg.maxAppDataSize x (blockStart m) m.payload = (true, x1)) :
    HoldsBlock x1 m (transfer endpoint m (tr ++ [.accepted endpoint m])) := by
  rw [transfer_block ho, if_pos (Akin.refl endpoint m)]
  have hfresh : x.nextBlockOffset = 0 → HoldsBlock x1 m [m] :=
    fun h0 => (Holds.of_zero h0 []).handle hfit.stop hh
  by_cases hnum : o.num = 0
  · rw [if_pos hnum]
    have hstart : blockStart m = 0 := by
      unfold blockStart
      rw [ho]
      dsimp only
      rw [hnum]
      exact Nat.zero_mul _
    rcases hx with hx | hx
    · rcases (hcan x hx).restart hnum with h0 | hsame
      · exact hfresh h0
      · rcases handleBlock_true hh with ⟨h0, _⟩ | ⟨_, rfl⟩
        · exact hfresh (h0.trans hstart)
        · have := hfit.stop
          exact holdsBlock_repeated hstart (by omega) hsame
    · exact hfresh hx.2
  · rw [if_neg hnum]
    have hx := hx.resolve_right fun h => hnum h.1
    have hown : (requestLookup endpoint m).Owns x := found_owns hx (hcan x hx).path
    exact (h.holds x (findServerRequest_mem hx) endpoint m hown).handle hfit.stop hh

section
variable (hcan : ∀ x, findServerRequest endpoint m s = some x → CanResume m o x)
include hcan

/-- a buffer of the exchange is the one that is found -/
theorem Uploads.found_id (h : Uploads s tr) {b : BlockwiseState} (hb : b ∈ s.requests) {e1 : Endpoint}
    {m1 : Message} (hown : (requestLookup e1 m1).Owns b) (hsame : Akin e1 m1 endpoint m) :
    ∃ x, findServerRequest endpoint m s = some x ∧ b.id = x.id := by
  have hown := hsame.owns hown
  obtain ⟨x, hx⟩ := Option.ne_none_iff_exists'.mp (owns_found hb hown)
  have hx : findServerRequest endpoint m s = some x := hx
  exact ⟨x, hx, h.single x (findServerRequest_mem hx) b hb endpoint m
    (found_owns hx (hcan x hx).path) hown⟩

/-- a buffer with another address belongs to another exchange -/
theorem Uploads.not_akin (h : Uploads s tr) {x b : BlockwiseState}
    (hx : ∀ y, findServerRequest endpoint m s = some y → y = x) (hb : b ∈ s.requests)
    (hne : b.id ≠ x.id) (e1 : Endpoint) (m1 : Message) (hown : (requestLookup e1 m1).Owns b) :
    ¬ Akin e1 m1 endpoint m := fun hsame => by
  obtain ⟨y, hy, hid⟩ := h.found_id hcan hb hown hsame
  rw [hx y hy] at hid
  exact hne hid

/-- the buffer of a request, found or made for it, belongs to no other exchange -/
theorem Upload.akin {num : UInt32} {l1 : Locals} {x : BlockwiseState} (hl : l.state.requests = s.requests)
    (hup : Upload endpoint m num l l1 x) {e1 : Endpoint} {m1 : Message}
    (hown : (requestLookup e1 m1).Owns x) : Akin e1 m1 endpoint m := by
  rcases hup.found with hx | ⟨_, _, _, h1, h2, h3, h4⟩
  · exact akin_of_owns hown (found_owns hx (hcan x (findServerRequest_congr hl endpoint m ▸ hx)).path)
  · exact akin_of_made hown h1 h2 h3 h4

end

/-- **A request with Block1.**  A buffer that is left behind is the one of the request, with the block
in it, or belongs to another exchange; and the entity handler gets blocks of the transfer. -/
theorem Uploads.branch (h : Uploads s tr) (ha : Admitted s l) (hg : Genuine m)
    (ho : coapGetHeaderBlock1 m = some o) (hfit : BlockFits cfg m o)
    (hcan : ∀ x, findServerRequest endpoint m s = some x → CanResume m o x)
    {r : Locals × Label}
    (hr : requestBranch cfg env endpoint m (l.emit (.accepted endpoint m)) = r) :
    (∀ b ∈ (processRequest cfg env endpoint m l).1.requests,
      (r.1.requestBuffer = some b ∧
        Holds b (transfer endpoint m (tr ++ [.accepted endpoint m])) ∧
        ∀ e1 m1, (requestLookup e1 m1).Owns b → Akin e1 m1 endpoint m) ∨
      b ∈ s.requests ∧ ∀ e1 m1, (requestLookup e1 m1).Owns b → ¬ Akin e1 m1 endpoint m) ∧
      (r.2 = .requestHandler → OfTransfer m (requestPayload r.1)
        (transfer endpoint m (tr ++ [.accepted endpoint m]))) := by
  have hbefore : (l.emit (.accepted endpoint m)).state.requests = s.requests := ha.requests
  have hfind := findServerRequest_congr hbefore endpoint m
  have hold : ∀ b, b ∈ (l.emit (.accepted endpoint m)).state.requests → b ∈ s.requests :=
    fun b hb => hbefore ▸ hb
  have hleft := processRequest_requests cfg env endpoint m l hr
  have hr1 : r = block1Request cfg env endpoint m (blockParams cfg (some o))
      (l.emit (.accepted endpoint m)) := by
    rw [← hr]
    unfold requestBranch
    rw [ho]
  rcases uploadBuffer_cases env endpoint m (blockParams cfg (some o)).num
    (l.emit (.accepted endpoint m)) with ⟨x, hup⟩ | ⟨hnone, hbuf, hreq⟩
  · have hx := hup.found
    rw [hfind] at hx
    -- what else is left belongs to another exchange
    have hfound : ∀ y, findServerRequest endpoint m s = some y → y = x := by
      intro y hy
      rcases hx with hx | ⟨hx, _⟩
      · exact Option.some.inj (hy.symm.trans hx)
      · exact absurd (hx.symm.trans hy) (by simp)
    obtain ⟨hoff, htake⟩ := hfit.stored hg ho
    cases block1Request_cases cfg env endpoint m (blockParams cfg (some o)) hup.buffer with
    | refused hr2 =>
      rw [← hr1] at hr2
      subst hr2
      refine ⟨fun b hb => ?_, fun hl => absurd hl (by simp)⟩
      obtain ⟨h1, _, h3⟩ := hleft b hb
      have hne : b.id ≠ x.id := fun hid => absurd (h3 x hup.buffer hid) (by simp)
      have hb' := hold b ((hup.others b h1).resolve_left fun he => hne (by rw [he]))
      exact Or.inr ⟨hb', h.not_akin hcan hfound hb' hne⟩
    | taken x1 x2 hh hkey1 hsame hb2 hreq hsize =>
      rw [← hr1] at hb2 hreq hsize
      rw [hoff, htake] at hh
      have hkey : SameKey x x1 := by
        have := sameKey_handle cfg.maxAppDataSize x (blockStart m) m.payload
        rwa [hh] at this
      have hkey2 := hkey.trans hkey1
      have hstored := h.stored ho hfit hcan (hx.imp_right fun h => ⟨h.2.1, h.2.2.1⟩) hh
      have hstored2 := hstored.congr hsame.1 hsame.2
      refine ⟨fun b hb => ?_, fun hl => hstored2.ofTransfer hb2 (hsize hl)⟩
      obtain ⟨h1, _, _⟩ := hleft b hb
      rw [hreq] at h1
      rcases mem_put h1 with rfl | ⟨hin, hne⟩
      · exact Or.inl ⟨hb2, hstored2.holds, fun e1 m1 hown => hup.akin hcan hbefore (hkey2.owns hown)⟩
      · rw [hkey2.id] at hne
        have hb' := hold b ((hup.others b hin).resolve_left fun he => hne (by rw [he]))
        exact Or.inr ⟨hb', h.not_akin hcan hfound hb' hne⟩
  · -- no buffer, and none of the exchange was there
    have hr2 : r = (uploadBuffer env endpoint m (blockParams cfg (some o)).num
        (l.emit (.accepted endpoint m)), .initResetMessage) := by
      rw [hr1]
      unfold block1Request
      dsimp only
      rw [hbuf]
    rw [hfind] at hnone
    subst hr2
    refine ⟨fun b hb => ?_, fun hl => absurd hl (by simp)⟩
    obtain ⟨h1, _, _⟩ := hleft b hb
    rw [hreq] at h1
    refine Or.inr ⟨hold b h1, fun e1 m1 hown hsame => ?_⟩
    obtain ⟨y, hy, _⟩ := h.found_id hcan (hold b h1) hown hsame
    exact absurd (hnone.symm.trans hy) (by simp)

/-- the invariant after a request with Block1 -/
theorem Uploads.block1 (h : Uploads s tr) (ho : coapGetHeaderBlock1 m = some o)
    {q : Option BlockwiseState}
    (hleft : ∀ b ∈ s'.requests,
      (q = some b ∧ Holds b (transfer endpoint m (tr ++ [.accepted endpoint m])) ∧
        ∀ e1 m1, (requestLookup e1 m1).Owns b → Akin e1 m1 endpoint m) ∨
      b ∈ s.requests ∧ ∀ e1 m1, (requestLookup e1 m1).Owns b → ¬ Akin e1 m1 endpoint m) :
    Uploads s' (tr ++ [.accepted endpoint m]) := by
  refine ⟨fun b hb e1 m1 hown => ?_, fun b hb b' hb' e1 m1 hown hown' => ?_⟩
  · rcases hleft b hb with ⟨_, hh, hmade⟩ | ⟨hin, hother⟩
    · rw [(hmade e1 m1 hown).transfer]
      exact hh
    · rw [transfer_block ho, if_neg (hother e1 m1 hown)]
      exact h.holds b hin e1 m1 hown
  · rcases hleft b hb with ⟨hq, _, hmade⟩ | ⟨hin, hother⟩
    · rcases hleft b' hb' with ⟨hq', _, _⟩ | ⟨_, hother'⟩
      · rw [Option.some.inj (hq.symm.trans hq')]
      · exact absurd (hmade e1 m1 hown) (hother' e1 m1 hown')
    · rcases hleft b' hb' with ⟨_, _, hmade'⟩ | ⟨hin', _⟩
      · exact absurd (hmade' e1 m1 hown') (hother e1 m1 hown)
      · exact h.single b hin b' hin' e1 m1 hown hown'

end

/-! ## runs -/

section
variable {cfg : Config} {env : Env} {msg : OcMessage} {m : Message} {s : State} {l : Locals}
  {tr es : List Event}

/-- of the events of a request the transfers notice the first one -/
theorem transfer_request {endpoint : Endpoint} {quiet rest : List Event}
    (hq : ∀ ev ∈ quiet, ev.Silent) (hrest : ∀ e' m', Event.accepted e' m' ∉ rest)
    (e1 : Endpoint) (m1 : Message) :
    transfer e1 m1 (tr ++ (quiet ++ .accepted endpoint m :: rest))
      = transfer e1 m1 (tr ++ [.accepted endpoint m]) := by
  have hquiet : transfer e1 m1 (tr ++ quiet) = transfer e1 m1 tr :=
    transfer_idle fun e' m' hin => hq _ hin
  have hsplit : tr ++ (quiet ++ .accepted endpoint m :: rest)
      = (tr ++ quiet ++ [.accepted endpoint m]) ++ rest := by simp
  rw [hsplit, transfer_idle hrest, transfer_append, hquiet, transfer_append]

theorem isolated_idle (h : Isolated tr) (hes : ∀ ev ∈ es, ev.Silent ∨ ∃ e m p source,
    ev = .sending e m p source ∧ ¬ m.IsRequest) : Isolated (tr ++ es) := by
  refine always_append.mpr ⟨h, always_of_mem fun ev hin before _ => ?_⟩
  rcases hes ev hin with hs | ⟨_, _, _, _, rfl, _⟩
  · cases ev with
    | produced e m payload rep etag => exact absurd hs (fun h => h)
    | _ => trivial
  · trivial

/-- a request, if the entity handler gets blocks of the transfer -/
theorem isolated_request (h : Isolated tr) (hl : ∀ ev ∈ l.events, ev.Silent) {endpoint : Endpoint}
    {r : Locals × Label}
    (hr : requestBranch cfg env endpoint m (l.emit (.accepted endpoint m)) = r)
    (hpay : (coapGetHeaderBlock1 m).isSome → r.2 = .requestHandler → OfTransfer m (requestPayload r.1)
      (transfer endpoint m (tr ++ [.accepted endpoint m]))) :
    Isolated (tr ++ (processRequest cfg env endpoint m l).2) := by
  obtain ⟨rest, he, hrest⟩ := processRequest_rest cfg env endpoint m l hr
  rw [he, ← List.append_assoc]
  refine always_append.mpr ⟨isolated_idle h fun ev hin => Or.inl (hl ev hin), ?_⟩
  refine always_cons.mpr ⟨trivial, always_of_mem fun ev hin before hsub => ?_⟩
  cases ev with
  | produced e' m' payload rep etag =>
    obtain ⟨hlabel, rfl, rfl, rfl, _, _⟩ := hrest.produced e' m' payload rep etag hin
    intro hb1
    rw [List.append_assoc, transfer_request hl fun e' m' hin => hrest.accepted e' m' (hsub _ hin)]
    exact hpay hb1 hlabel
  | _ => trivial

/-- one step that meets the condition -/
theorem Uploads.step (hu : Uploads s tr) (hi : Isolated tr) (hs : s.WF) (st : Step)
    (hc : Resumable cfg s st) :
    Uploads (step cfg st s).1 (tr ++ (step cfg st s).2) ∧ Isolated (tr ++ (step cfg st s).2) := by
  have hidle : ∀ {r : State × List Event}, Idle s r →
      Uploads r.1 (tr ++ r.2) ∧ Isolated (tr ++ r.2) := by
    intro r h
    refine ⟨hu.quiet (h.requests hs) fun e m => transfer_idle h.not_accepted, ?_⟩
    exact isolated_idle hi h.events
  by_cases hst : ∃ env msg, st = .receive env msg
  · obtain ⟨env, msg, rfl⟩ := hst
    show Uploads (coapReceive cfg env msg s).1 (tr ++ (coapReceive cfg env msg s).2) ∧
      Isolated (tr ++ (coapReceive cfg env msg s).2)
    rcases coapReceive_handles cfg env msg s with ⟨m, l, hm, hg, ha, hrun⟩ | h
    · have hc := hc m hm
      obtain ⟨rest, he, hrest⟩ := processRequest_rest cfg env msg.endpoint m l rfl
      have htr : ∀ e1 m1, transfer e1 m1 (tr ++ (processRequest cfg env msg.endpoint m l).2)
          = transfer e1 m1 (tr ++ [.accepted msg.endpoint m]) := by
        rw [he]
        exact transfer_request ha.events hrest.accepted
      rw [hrun]
      cases ho : coapGetHeaderBlock1 m with
      | some o =>
        rw [ho] at hc
        obtain ⟨hfit, hcan⟩ := hc
        obtain ⟨hleft, hpay⟩ := hu.branch ha hg ho hfit hcan rfl
        refine ⟨?_, isolated_request hi ha.events rfl fun _ => hpay⟩
        exact (hu.block1 ho hleft).congr htr
      | none =>
        have hsize : ∀ o, coapGetHeaderBlock2 m = some o → m.payload.length < 2^31 := by
          intro o ho2
          rw [ho, ho2] at hc
          exact hc
        refine ⟨?_, isolated_request hi ha.events rfl fun hb1 => absurd hb1 (by simp [ho])⟩
        refine hu.quiet (Descends.of_subset SameUpload.refl fun b hb => ?_) fun e1 m1 => ?_
        · exact ha.requests ▸ plain_requests ho hsize l b hb
        · rw [htr, transfer_append, List.foldl_cons, List.foldl_nil, uploadStep_plain ho]
    · exact hidle h
  · exact hidle (step_idle cfg st s fun env msg h => hst ⟨env, msg, h⟩)

theorem uploads_run (h : Run cfg (Resumable cfg) s tr) : Uploads s tr ∧ Isolated tr := by
  induction h with
  | init currentMid => exact ⟨uploads_init currentMid, always_nil _⟩
  | step st hrun hc ih => exact ih.1.step ih.2 hrun.wf st hc

end

/-! ## the main result -/

/-- **Uploads.**  In every run whose steps are `Resumable`, a handler that runs for a request with
Block1 gets blocks of the transfer that is open, and of no other one. -/
theorem isolated_run (cfg : Config) (s : State) (tr : List Event)
    (h : Run cfg (Resumable cfg) s tr) : Isolated tr := (uploads_run h).2

/-! ## two blocks -/

/-- POST `a` with Block1, and sixteen bytes -/
def uploadPost (mid block byte : UInt8) : OcMessage :=
  sampleMessage 1
    ([0x40, 0x02, 0x00, mid, 0xB1, 0x61, 0xD1, 0x03, block, 0xFF] ++ List.replicate 16 byte)

def receivePost (mid block byte : UInt8) : Step :=
  .receive (sampleEnv [] length_nil_lt) (uploadPost mid block byte)

/-- block zero, more to come -/
def firstPart : State × List Event := step defaultConfig (receivePost 1 0x08 7) (State.init 0)

/-- block one, the last one -/
def secondPart : State × List Event := step defaultConfig (receivePost 2 0x10 9) firstPart.1

theorem firstPart_resumable : Resumable defaultConfig (State.init 0) (receivePost 1 0x08 7) := by
  obtain ⟨m0, hp, ho, hpay⟩ : ∃ m0, (uploadPost 1 0x08 7).parse defaultConfig = .ok m0 ∧
      coapGetHeaderBlock1 m0 = some (parseBlockOption 8) ∧ m0.payload = List.replicate 16 7 :=
    ⟨_, rfl, rfl, rfl⟩
  intro m hm
  obtain rfl : m0 = m := Except.ok.inj (hp.symm.trans hm.parsed)
  have hstart : blockStart m0 = 0 := by
    unfold blockStart
    rw [ho]
    rfl
  rw [ho]
  refine ⟨⟨?_, ?_⟩, fun x hx => absurd (findServerRequest_mem hx) List.not_mem_nil⟩
  · rw [hpay]
    decide
  · rw [hpay, hstart]
    decide

theorem secondPart_resumable : Resumable defaultConfig firstPart.1 (receivePost 2 0x10 9) := by
  obtain ⟨m0, hp, ho, hpay, hpath⟩ : ∃ m0, (uploadPost 2 0x10 9).parse defaultConfig = .ok m0 ∧
      coapGetHeaderBlock1 m0 = some (parseBlockOption 16) ∧ m0.payload = List.replicate 16 9 ∧
      coapGetHeaderUriPath m0 = [0x61] := ⟨_, rfl, rfl, rfl, rfl⟩
  obtain ⟨x0, hreq, hhref⟩ : ∃ x0, firstPart.1.requests = [x0] ∧ x0.href = [0x61] := ⟨_, rfl, rfl⟩
  intro m hm
  obtain rfl : m0 = m := Except.ok.inj (hp.symm.trans hm.parsed)
  have hstart : blockStart m0 = 16 := by
    unfold blockStart
    rw [ho]
    rfl
  rw [ho]
  refine ⟨⟨?_, ?_⟩, fun x hx => ⟨?_, fun h => absurd h (by decide)⟩⟩
  · rw [hpay]
    decide
  · rw [hpay, hstart]
    decide
  · have hin := findServerRequest_mem hx
    rw [hreq] at hin
    rw [List.mem_singleton.mp hin, hhref, hpath]

/-- an upload in two blocks -/
theorem isolated_twoBlocks : Isolated ([] ++ firstPart.2 ++ secondPart.2) ∧
    ∃ e m rep etag, Event.produced e m (List.replicate 16 7 ++ List.replicate 16 9) rep etag ∈
      secondPart.2 :=
  ⟨isolated_run defaultConfig secondPart.1 _
    (.step _ (.step _ (.init 0) firstPart_resumable) secondPart_resumable),
    _, _, _, _, List.mem_of_getElem? (i := 2) rfl⟩

/-! ## a transfer that starts again -/

/-- another block zero, more to come -/
def restarted : State × List Event := step defaultConfig (receivePost 2 0x08 8) firstPart.1

/-- its block one, the last one -/
def completed : State × List Event := step defaultConfig (receivePost 3 0x10 9) restarted.1

/-- The second transfer starts while the buffer of the first one is there: its block zero is
acknowledged and dropped, and the handler gets block zero of the first transfer. -/
theorem not_isolated :
    Run defaultConfig (fun _ _ => True) completed.1 ([] ++ firstPart.2 ++ restarted.2 ++ completed.2) ∧
      ¬ Isolated ([] ++ firstPart.2 ++ restarted.2 ++ completed.2) := by
  refine ⟨.step _ (.step _ (.step _ (.init 0) trivial) trivial) trivial, fun h => ?_⟩
  obtain ⟨e, m, rep, etag, m2, he, hb1, ht, hp2, hp3⟩ : ∃ e m rep etag m2,
      completed.2 = completed.2.take 2 ++ .produced e m (List.replicate 16 7 ++ List.replicate 16 9)
        rep etag :: completed.2.drop 3 ∧ (coapGetHeaderBlock1 m).isSome ∧
      transfer e m ([] ++ firstPart.2 ++ restarted.2 ++ completed.2.take 2) = [m2, m] ∧
      m2.payload = List.replicate 16 8 ∧ m.payload = List.replicate 16 9 :=
    ⟨_, _, _, _, _, rfl, rfl, rfl, rfl, rfl⟩
  have h1 := (always_append.mp h).2 _ _ _ he hb1
  rw [ht] at h1
  obtain ⟨bs, hsub, _, hpay, _⟩ := h1
  -- the byte `7` is in no block of the second transfer
  have h7 : (7 : UInt8) ∈ joined bs := hpay ▸ by decide
  obtain ⟨x, hx, h7⟩ := List.mem_flatMap.mp h7
  rcases List.mem_pair.mp (hsub.subset hx) with rfl | rfl
  · rw [hp2] at h7
    exact absurd h7 (by decide)
  · rw [hp3] at h7
    exact absurd h7 (by decide)

end Coap
