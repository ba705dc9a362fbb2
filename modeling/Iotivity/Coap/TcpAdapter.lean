import Iotivity.Coap.Parse

/-!
# The receive loop of `tcpadapter.c`

A TCP session is a stream of bytes, and `recv` gives out as many of them as have come in, up to the
number that is asked for.  `oc_tcp_receive_message` asks for six bytes, takes the length of the
message from what it got, and then asks for the rest of the message.

* `ocTcpReceiveMessage`      one call, on a session that is ready to be read;
* `ocTcpReceiveMessage_eq`   what a call returns, and where it leaves the stream;
* `receiveAll`               a call for each message;
* `InStep`                   the first answer to a call holds what gives the length of the message,
                             and nothing that belongs to the next one;
* `receiveAll_eq_iff`        the calls return the messages exactly when all of them are in step.
-/

namespace Coap
open Memory

/-! ## one call -/

/-- `adapter_receive_state_t` with the message, or a call that still waits for the peer -/
inductive Received where
  | receive (message : List UInt8)
  | none
  | error
  | waiting
deriving DecidableEq

/-- locals of `oc_tcp_receive_message`, and `data` and `length` of its message -/
structure Receiving where
  data : Nat → UInt8
  length : Nat
  totalLength : Nat
  wantRead : Nat

/-- what is stored of bytes that came in -/
def Receiving.store (part : List UInt8) (m : Receiving) : Receiving :=
  { m with
    data := write m.data m.length part
    length := m.length + part.length
    wantRead := m.wantRead - part.length }

def tlsHeaderSize : Nat := 5

def getTotalLengthFromHeader (secured : Bool) (data : Nat → UInt8) : Nat :=
  if secured then tlsHeaderSize + ((data 3).toNat <<< 8 ||| (data 4).toNat)
  else coapTcpGetPacketSize data

/-- `(unsigned)(OC_MAX_APP_DATA_SIZE + COAP_MAX_HEADER_SIZE)` -/
def maxTotalLength (cfg : Config) : Nat := (cfg.maxAppDataSize + coapMaxHeaderSize) % 2^32

/-- the length of the message is taken from the first `count` bytes of it, or is known -/
def Receiving.measure (cfg : Config) (secured : Bool) (count : Nat) (m : Receiving) :
    Option Receiving :=
  if m.totalLength = 0 then
    let totalLength := getTotalLengthFromHeader secured m.data
    if maxTotalLength cfg < totalLength then none
    else some { m with totalLength, wantRead := totalLength - count }
  else some m

/-- the receive loop.  `answer` gives the results of `recv`: how much has come in, that the peer has
closed the session, or an error; the session is gone after the last two.  Every round takes
something from the stream, so that as many rounds as it has bytes are enough. -/
def receiveLoop (cfg : Config) (secured : Bool) (answer : Nat → Int) :
    Nat → Nat → Receiving → List UInt8 → Received × Option (List UInt8)
  | 0, _, _, stream => (.waiting, some stream)
  | fuel + 1, j, m, stream =>
    if answer j < 0 then (.error, none)
    else if answer j = 0 then (.none, none)
    else
      let part := stream.take (min (answer j).toNat m.wantRead)
      let stream := stream.drop part.length
      if part = [] then (.waiting, some stream)
      else
        match (m.store part).measure cfg secured part.length with
        | none => (.error, some stream)
        | some m =>
          if m.length < m.totalLength then receiveLoop cfg secured answer fuel (j + 1) m stream
          else (.receive (read m.data 0 m.length), some stream)

def defaultReceiveSize : Nat := coapTcpDefaultHeaderLen + 4

/-- `oc_tcp_receive_message` for a session; `stale` is what the buffer of the message holds -/
def ocTcpReceiveMessage (cfg : Config) (secured : Bool) (stale : Nat → UInt8) (answer : Nat → Int) :
    Option (List UInt8) → Received × Option (List UInt8)
  | none => (.none, none)
  | some stream =>
    receiveLoop cfg secured answer (stream.length + 1) 0 ⟨stale, 0, 0, defaultReceiveSize⟩ stream

/-! ## what a call returns -/

section
variable {cfg : Config} {secured : Bool} {stale : Nat → UInt8} {answer : Nat → Int}

theorem store_written (stale : Nat → UInt8) (got part : List UInt8) (total want : Nat) :
    (Receiving.mk (write stale 0 got) got.length total want).store part =
      ⟨write stale 0 (got ++ part), (got ++ part).length, total, want - part.length⟩ := by
  unfold Receiving.store
  rw [write_append, Nat.zero_add, List.length_append]

theorem measure_known (cfg : Config) (secured : Bool) (count : Nat) {m : Receiving}
    (h : m.totalLength ≠ 0) : m.measure cfg secured count = some m := if_neg h

/-- what is taken from a list, and what is left -/
theorem take_append_drop_length {α : Type} (n : Nat) (l : List α) :
    l.take n ++ l.drop (l.take n).length = l := by
  rw [List.length_take]
  rcases Nat.le_total n l.length with h | h
  · rw [Nat.min_eq_left h, List.take_append_drop]
  · rw [Nat.min_eq_right h, List.take_of_length_le h, List.drop_length, List.append_nil]

/-- the loop once the length is known: it waits for that many bytes -/
theorem receiveLoop_known (ha : ∀ j, 0 < answer j) {total : Nat} (fuel j : Nat)
    (got stream : List UInt8) (hlt : got.length < total) (hf : stream.length < fuel) :
    receiveLoop cfg secured answer fuel j
        ⟨write stale 0 got, got.length, total, total - got.length⟩ stream =
      if total ≤ got.length + stream.length then
        (.receive (got ++ stream.take (total - got.length)),
          some (stream.drop (total - got.length)))
      else (.waiting, some []) := by
  induction fuel generalizing j got stream with
  | zero => omega
  | succ fuel ih =>
    have hj := ha j
    unfold receiveLoop
    rw [if_neg (by omega), if_neg (by omega)]
    dsimp only
    have hsplit := take_append_drop_length (min (answer j).toNat (total - got.length)) stream
    have hlen : (stream.take (min (answer j).toNat (total - got.length))).length =
        min (min (answer j).toNat (total - got.length)) stream.length := List.length_take
    revert hsplit hlen
    generalize stream.take (min (answer j).toNat (total - got.length)) = part
    intro hsplit hlen
    generalize stream.drop part.length = rest at hsplit ⊢
    subst hsplit
    rw [List.length_append] at hlen hf ⊢
    by_cases hp : part = []
    · rw [hp, List.length_nil] at hlen
      have hrest : rest = [] := List.length_eq_zero_iff.mp (by omega)
      rw [hp, if_pos rfl, hrest, if_neg (by simp; omega)]
    · have hpos : 0 < part.length := List.length_pos_iff.mpr hp
      rw [if_neg hp, store_written, measure_known cfg secured _ (by dsimp only; omega)]
      dsimp only
      rw [List.length_append, List.take_append, List.drop_append]
      by_cases hmore : got.length + part.length < total
      · have hih := ih (j + 1) (got ++ part) rest (by rw [List.length_append]; exact hmore) (by omega)
        rw [List.length_append, ← Nat.sub_sub] at hih
        rw [if_pos hmore, hih, List.take_of_length_le (l := part) (by omega),
          List.drop_of_length_le (l := part) (by omega), List.append_assoc, List.nil_append,
          Nat.add_assoc]
      · have he : total - got.length = part.length := by omega
        rw [if_neg hmore, if_pos (by omega), he, Nat.sub_self, List.take_length, List.take_zero,
          List.append_nil, List.drop_length, List.drop_zero, List.nil_append,
          ← List.length_append, read_write_self]

/-- the bytes that the first `recv` of a call returns -/
def firstBytes (answer : Nat → Int) (stream : List UInt8) : List UInt8 :=
  stream.take (min (answer 0).toNat defaultReceiveSize)

/-- the length that is taken from them -/
def announced (secured : Bool) (stale : Nat → UInt8) (answer : Nat → Int) (stream : List UInt8) :
    Nat :=
  getTotalLengthFromHeader secured (write stale 0 (firstBytes answer stream))

/-- a message is longer than the bytes that say how long it is -/
theorem extended_lt_packetSize (data : Nat → UInt8) :
    (coapTcpParseMessageLength data).2 + 2 ≤ coapTcpGetPacketSize data := by
  unfold coapTcpGetPacketSize coapTcpDefaultHeaderLen
  dsimp only
  omega

theorem getTotalLengthFromHeader_pos (secured : Bool) (data : Nat → UInt8) :
    2 ≤ getTotalLengthFromHeader secured data := by
  have := extended_lt_packetSize data
  unfold getTotalLengthFromHeader
  split
  · unfold tlsHeaderSize
    omega
  · omega

/-- **One call.**  The message is as long as the first answer says, or as long as that answer. -/
theorem ocTcpReceiveMessage_eq (ha : ∀ j, 0 < answer j) (stream : List UInt8) (hs : stream ≠ []) :
    ocTcpReceiveMessage cfg secured stale answer (some stream) =
      let n := (firstBytes answer stream).length
      let total := announced secured stale answer stream
      if maxTotalLength cfg < total then (.error, some (stream.drop n))
      else if total ≤ n then (.receive (stream.take n), some (stream.drop n))
      else if total ≤ stream.length then (.receive (stream.take total), some (stream.drop total))
      else (.waiting, some []) := by
  have hj := ha 0
  have hpos : 0 < stream.length := List.length_pos_iff.mpr hs
  have hsplit := take_append_drop_length (min (answer 0).toNat defaultReceiveSize) stream
  have hlen : (firstBytes answer stream).length =
      min (min (answer 0).toNat defaultReceiveSize) stream.length := List.length_take
  have hsize : defaultReceiveSize = 6 := rfl
  have htotal := getTotalLengthFromHeader_pos secured (write stale 0 (firstBytes answer stream))
  change firstBytes answer stream ++ stream.drop (firstBytes answer stream).length = stream at hsplit
  unfold ocTcpReceiveMessage announced
  dsimp only
  unfold receiveLoop
  rw [if_neg (show ¬ answer 0 < 0 by omega), if_neg (show ¬ answer 0 = 0 by omega)]
  dsimp only
  rw [show stream.take (min (answer 0).toNat defaultReceiveSize) = firstBytes answer stream from rfl]
  generalize firstBytes answer stream = part at hsplit hlen htotal ⊢
  generalize stream.drop part.length = rest at hsplit ⊢
  subst hsplit
  rw [List.length_append] at hlen hpos ⊢
  have hpart : part ≠ [] := List.length_pos_iff.mp (by omega)
  have hstore := store_written stale [] part 0 defaultReceiveSize
  rw [write_nil, List.nil_append, List.length_nil] at hstore
  rw [if_neg hpart, hstore]
  unfold Receiving.measure
  dsimp only
  rw [if_pos rfl]
  generalize getTotalLengthFromHeader secured (write stale 0 part) = total at htotal ⊢
  by_cases hmax : maxTotalLength cfg < total
  · rw [if_pos hmax, if_pos hmax]
  · rw [if_neg hmax, if_neg hmax]
    dsimp only
    by_cases hle : total ≤ part.length
    · rw [if_neg (Nat.not_lt.mpr hle), if_pos hle, read_write_self, List.take_left]
    · have hlt := Nat.lt_of_not_le hle
      rw [if_pos hlt, if_neg hle, receiveLoop_known ha _ _ part rest hlt (by omega)]
      by_cases hin : total ≤ part.length + rest.length
      · rw [if_pos hin, if_pos hin, List.take_append, List.drop_append,
          List.take_of_length_le (l := part) (by omega),
          List.drop_of_length_le (l := part) (by omega), List.nil_append]
      · rw [if_neg hin, if_neg hin]

end

/-! ## a call for each message -/

/-- a message as it is sent: it is as long as its header says, and not too long for the buffer -/
structure TcpFrame (cfg : Config) where
  bytes : List UInt8
  size : coapTcpGetPacketSize (fun i => bytes.getD i 0) = bytes.length
  fits : bytes.length ≤ cfg.maxAppDataSize + coapMaxHeaderSize

/-- what a call finds: a buffer that was used before, and how much has come in at each `recv` -/
structure ReceiveCall where
  stale : Nat → UInt8
  chunk : Nat → Nat
  pos : ∀ j, 0 < chunk j

def ReceiveCall.answer (c : ReceiveCall) (j : Nat) : Int := c.chunk j

/-- calls for a session that is not secured, one after the other -/
def receiveAll (cfg : Config) :
    List ReceiveCall → Option (List UInt8) → List Received × Option (List UInt8)
  | [], session => ([], session)
  | c :: calls, session =>
    let (r, session) := ocTcpReceiveMessage cfg false c.stale c.answer session
    let (rs, session) := receiveAll cfg calls session
    (r :: rs, session)

section
variable {cfg : Config} {c : ReceiveCall} {f : TcpFrame cfg} {behind : List UInt8}

/-- messages one behind the other -/
def streamOf (l : List (ReceiveCall × TcpFrame cfg)) : List UInt8 := l.flatMap fun x => x.2.bytes

/-- the first answer to a call does not reach into what comes behind the message, and the length
that is taken from it is that of the message -/
structure InStep (c : ReceiveCall) (f : TcpFrame cfg) (behind : List UInt8) : Prop where
  within : (firstBytes c.answer (f.bytes ++ behind)).length ≤ f.bytes.length
  measured : coapTcpGetPacketSize (write c.stale 0 (firstBytes c.answer (f.bytes ++ behind))) =
    f.bytes.length
  allowed : f.bytes.length ≤ maxTotalLength cfg

def AllInStep : List (ReceiveCall × TcpFrame cfg) → Prop
  | [] => True
  | x :: l => InStep x.1 x.2 (streamOf l) ∧ AllInStep l

/-- the length of a message is given by its first bytes -/
theorem coapTcpGetPacketSize_congr {m m' : Nat → UInt8}
    (h : ∀ i ≤ (coapTcpParseMessageLength m).2, m' i = m i) :
    coapTcpGetPacketSize m' = coapTcpGetPacketSize m := by
  have h0 : m' 0 = m 0 := h 0 (Nat.zero_le _)
  have hp : coapTcpParseMessageLength m' = coapTcpParseMessageLength m := by
    unfold coapTcpParseMessageLength at h ⊢
    rw [h0]
    dsimp only at h ⊢
    by_cases hs : ((0xF0 &&& m 0) >>> 4).toNat < 13
    · rw [if_pos hs, if_pos hs]
    · rw [if_neg hs] at h
      rw [if_neg hs, if_neg hs]
      generalize 1 <<< (((0xF0 &&& m 0) >>> 4).toNat - 13) = n at h ⊢
      have hn : ∀ i < n, m' (i + 1) = m (i + 1) := by
        intro i hi
        apply h
        split_ifs
        · exact hi
        · exact hi
        · exact hi
      rw [List.foldl_ext _ _ _ fun acc i hi => by rw [hn i (List.mem_range.mp hi)]]
  unfold coapTcpGetPacketSize
  rw [hp, h0]

/-- the bytes that say how long a message is are its own -/
theorem TcpFrame.header_lt (f : TcpFrame cfg) :
    (coapTcpParseMessageLength fun i => f.bytes.getD i 0).2 < f.bytes.length := by
  have := extended_lt_packetSize fun i => f.bytes.getD i 0
  rw [f.size] at this
  omega

theorem TcpFrame.ne_nil (f : TcpFrame cfg) (behind : List UInt8) : f.bytes ++ behind ≠ [] := by
  have := f.header_lt
  apply List.length_pos_iff.mp
  rw [List.length_append]
  omega

theorem ReceiveCall.answer_pos (c : ReceiveCall) (j : Nat) : 0 < c.answer j := by
  have := c.pos j
  unfold ReceiveCall.answer
  omega

/-- a message is measured as soon as the header of it is there -/
theorem measured_of_header {part : List UInt8} (hp : part <+: f.bytes)
    (hh : (coapTcpParseMessageLength fun i => f.bytes.getD i 0).2 < part.length) :
    coapTcpGetPacketSize (write c.stale 0 part) = f.bytes.length := by
  rw [← f.size]
  apply coapTcpGetPacketSize_congr
  intro i hi
  have hlt : i < part.length := by omega
  have hw := write_apply_mem c.stale 0 part i hlt
  rw [Nat.zero_add] at hw
  rw [hw, List.getD_eq_getElem _ _ (Nat.lt_of_lt_of_le hlt hp.length_le)]
  exact hp.getElem hlt

/-- the first part of a stream is its beginning -/
theorem firstBytes_eq_take (answer : Nat → Int) (stream : List UInt8) :
    firstBytes answer stream = stream.take (firstBytes answer stream).length := by
  have h := take_append_drop_length (min (answer 0).toNat defaultReceiveSize) stream
  change firstBytes answer stream ++ stream.drop (firstBytes answer stream).length = stream at h
  exact (List.prefix_iff_eq_take.mp ⟨_, h⟩)

/-- a first answer that ends between the header and the end of the message is in step -/
theorem InStep.of_header (hle : f.bytes.length ≤ maxTotalLength cfg)
    (hn : (firstBytes c.answer (f.bytes ++ behind)).length ≤ f.bytes.length)
    (hh : (coapTcpParseMessageLength fun i => f.bytes.getD i 0).2 <
      (firstBytes c.answer (f.bytes ++ behind)).length) : InStep c f behind := by
  have hp : firstBytes c.answer (f.bytes ++ behind) <+: f.bytes := by
    rw [firstBytes_eq_take, List.take_append_of_le_length hn]
    exact List.take_prefix _ _
  exact ⟨hn, measured_of_header hp hh, hle⟩

theorem announced_eq :
    announced false c.stale c.answer (f.bytes ++ behind) =
      coapTcpGetPacketSize (write c.stale 0 (firstBytes c.answer (f.bytes ++ behind))) := rfl

theorem InStep.receive (h : InStep c f behind) :
    ocTcpReceiveMessage cfg false c.stale c.answer (some (f.bytes ++ behind)) =
      (.receive f.bytes, some behind) := by
  have hw := h.within
  rw [ocTcpReceiveMessage_eq c.answer_pos _ (f.ne_nil behind)]
  dsimp only
  rw [announced_eq, h.measured, if_neg (Nat.not_lt.mpr h.allowed)]
  by_cases hle : f.bytes.length ≤ (firstBytes c.answer (f.bytes ++ behind)).length
  · rw [if_pos hle, Nat.le_antisymm hw hle, List.take_left, List.drop_left]
  · rw [if_neg hle, if_pos (by rw [List.length_append]; omega), List.take_left, List.drop_left]

/-- a call that returns the message was in step -/
theorem inStep_of_receive
    (h : (ocTcpReceiveMessage cfg false c.stale c.answer (some (f.bytes ++ behind))).1 =
      .receive f.bytes) : InStep c f behind := by
  have htake : ∀ {n}, n ≤ (f.bytes ++ behind).length → (f.bytes ++ behind).take n = f.bytes →
      n = f.bytes.length := by
    intro n hn he
    have := congrArg List.length he
    rw [List.length_take] at this
    omega
  have hfirst := firstBytes_eq_take c.answer (f.bytes ++ behind)
  have hle : (firstBytes c.answer (f.bytes ++ behind)).length ≤ (f.bytes ++ behind).length := by
    unfold firstBytes
    rw [List.length_take]
    omega
  rw [ocTcpReceiveMessage_eq c.answer_pos _ (f.ne_nil behind)] at h
  dsimp only at h
  rw [announced_eq] at h
  split_ifs at h with hmax hn ht
  · have he := Received.receive.inj h
    have hlen := htake hle he
    rw [he] at hfirst
    have hm : coapTcpGetPacketSize (write c.stale 0 (firstBytes c.answer (f.bytes ++ behind))) =
        f.bytes.length := by
      rw [hfirst]
      exact measured_of_header List.prefix_rfl f.header_lt
    exact ⟨hlen.le, hm, by omega⟩
  · have hlen := htake ht (Received.receive.inj h)
    exact ⟨by omega, hlen, by omega⟩

/-- **The receive loop.**  Calls return exactly the messages of a stream, one per call and in order,
if and only if the first `recv` of every call is in step with the message. -/
theorem receiveAll_eq_iff (l : List (ReceiveCall × TcpFrame cfg)) :
    receiveAll cfg (l.map Prod.fst) (some (streamOf l)) =
        (l.map fun x => .receive x.2.bytes, some []) ↔ AllInStep l := by
  induction l with
  | nil => exact ⟨fun _ => trivial, fun _ => rfl⟩
  | cons x l ih =>
    have hs : streamOf (x :: l) = x.2.bytes ++ streamOf l := List.flatMap_cons
    rw [hs, List.map_cons, List.map_cons]
    unfold receiveAll AllInStep
    dsimp only
    constructor
    · intro h
      have hx := inStep_of_receive (List.cons.inj (Prod.mk.inj h).1).1
      rw [hx.receive] at h
      obtain ⟨h1, h2⟩ := Prod.mk.inj h
      exact ⟨hx, ih.mp (Prod.ext (List.cons.inj h1).2 h2)⟩
    · rintro ⟨hx, hl⟩
      rw [hx.receive]
      dsimp only
      rw [ih.mpr hl]

end

/-- a buffer full of ones, and `n + 1` bytes at each `recv` -/
def steadyCall (n : Nat) : ReceiveCall := ⟨fun _ => 0xFF, fun _ => n + 1, fun _ => Nat.succ_pos n⟩

def pingBytes : List UInt8 := [0x00, 0xE2]

theorem pingBytes_size :
    coapTcpGetPacketSize (fun i => pingBytes.getD i 0) = pingBytes.length := by
  decide

theorem pingBytes_fits : pingBytes.length ≤ defaultConfig.maxAppDataSize + coapMaxHeaderSize := by
  decide

/-- a message of two bytes -/
def pingFrame : TcpFrame defaultConfig := ⟨pingBytes, pingBytes_size, pingBytes_fits⟩

def contentBytes : List UInt8 :=
  [0xD0, 0x00, 0x45, 0xFF, 1, 2, 3, 4, 5, 6, 7, 8, 9, 10, 11, 12]

theorem contentBytes_size :
    coapTcpGetPacketSize (fun i => contentBytes.getD i 0) = contentBytes.length := by
  decide

theorem contentBytes_fits :
    contentBytes.length ≤ defaultConfig.maxAppDataSize + coapMaxHeaderSize := by
  decide

/-- a message whose length is in its second byte -/
def contentFrame : TcpFrame defaultConfig := ⟨contentBytes, contentBytes_size, contentBytes_fits⟩

/-- two short messages are returned as one; and a message that comes in byte by byte is measured by
what the buffer held before -/
theorem receiveAll_out_of_step :
    receiveAll defaultConfig [steadyCall 5, steadyCall 5]
        (some (streamOf [(steadyCall 5, pingFrame), (steadyCall 5, pingFrame)])) =
      ([.receive [0x00, 0xE2, 0x00, 0xE2], .waiting], some []) ∧
    receiveAll defaultConfig [steadyCall 0] (some (streamOf [(steadyCall 0, contentFrame)])) =
      ([.waiting], some []) := by
  decide

end Coap
