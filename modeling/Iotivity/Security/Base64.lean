import Iotivity.Lib.Output
import Iotivity.Lib.Sextet
import Iotivity.Security.Text
import Mathlib.Data.List.GetD
import Mathlib.Data.List.TakeWhile
import Mathlib.Algebra.Group.Int.Defs
import Mathlib.Algebra.Group.Nat.Defs
import Mathlib.Algebra.Order.Group.Int

/-!
# The Base64 codec: `oc_base64.c`

`oc_base64_encode` writes to a buffer that it compares with the length of the text; `oc_base64_decode`
writes to the buffer that it reads.  `none` is undefined behaviour: a byte outside the buffer, or an `int`
index of 2^31 and more.

* `encode_text`       the text of a byte string;
* `decode_eq`         decoding in place, by the characters in front of the padding;
* `codec_iff`         what the two promise, and when.

The decoder of `Security.Text` is the same without a buffer (`decode_agrees`).
-/

namespace Base64
open Output Sextet
open Security (Bytes base64Value base64Loop forall_byte)

/-! ## `oc_base64_encode` -/

/-- the Base64 alphabet, and the padding character -/
def alphabet : Bytes :=
  ['A', 'B', 'C', 'D', 'E', 'F', 'G', 'H', 'I', 'J', 'K', 'L', 'M',
    'N', 'O', 'P', 'Q', 'R', 'S', 'T', 'U', 'V', 'W', 'X', 'Y', 'Z',
    'a', 'b', 'c', 'd', 'e', 'f', 'g', 'h', 'i', 'j', 'k', 'l', 'm',
    'n', 'o', 'p', 'q', 'r', 's', 't', 'u', 'v', 'w', 'x', 'y', 'z',
    '0', '1', '2', '3', '4', '5', '6', '7', '8', '9', '+', '/', '='].map fun c =>
    UInt8.ofNat c.toNat

/-- `INT_MAX + 1` -/
def intLimit : Nat := 2^31

theorem lt_intLimit {n : Nat} (hn : n < 256) : n < intLimit := by
  unfold intLimit
  omega

theorem intLimit_pos : 0 < intLimit := lt_intLimit (by decide)

/-- `output_buffer[j++] = alphabet[val]` -/
def putValue (out : Out UInt8) (val : Nat) : Option (Out UInt8) := alphabet[val]?.bind (put intLimit out)

/-- the loop over the input: `val`, and the output -/
def encodeLoop : Nat → Bytes → UInt8 → Out UInt8 → Option (UInt8 × Out UInt8)
  | _, [], val, out => some (val, out)
  | i, b :: input, val, out =>
    if i % 3 = 0 then do
      let out ← putValue out (b >>> 2).toNat
      encodeLoop (i + 1) input ((b <<< 4) &&& 0x30) out
    else if i % 3 = 1 then do
      let out ← putValue out (val ||| (b >>> 4)).toNat
      encodeLoop (i + 1) input ((b <<< 2) &&& 0x3D) out
    else do
      let out ← putValue out (val ||| (b >>> 6)).toNat
      let out ← putValue out (b &&& 0x3F).toNat
      encodeLoop (i + 1) input (b &&& 0x3F) out

/-- what is left over after `i` bytes -/
def putRest (i : Nat) (r : UInt8 × Out UInt8) : Option (Out UInt8) :=
  if i % 3 ≠ 0 then putValue r.2 r.1.toNat else some r.2

/-- `rounds` more characters of padding -/
def padLoop : Nat → Out UInt8 → Option (Out UInt8)
  | 0, out => some out
  | rounds + 1, out => do
    let out ← put intLimit out 61
    padLoop rounds out

/-- `output_len`, a `size_t` -/
def outputLen (inputLen : Nat) : Nat := (inputLen / 3 * 4 + if inputLen % 3 ≠ 0 then 4 else 0) % 2^64

/-- an empty input: `output_buffer[0] = '\0'` -/
def emptyText (inputLen : Nat) (buffer : Bytes) : Option Bytes :=
  if inputLen = 0 then (if buffer.length = 0 then none else some (buffer.set 0 0)) else some buffer

/-- `oc_base64_encode`: what it returns, and the buffer -/
def ocBase64Encode (input buffer : Bytes) : Option (Int × Bytes) :=
  if buffer.length < outputLen input.length then some (-1, buffer)
  else do
    let buffer ← emptyText input.length buffer
    let r ← encodeLoop 0 input 0 (buffer, 0)
    let out ← putRest input.length r
    -- `while (j < (int)output_len)`
    let out ← padLoop ((outputLen input.length : Int).bmod (2^32) - out.2).toNat out
    some (out.2, out.1)

/-! ## `oc_base64_decode` -/

/-- what the padding character at `i` means: `true` for the end of the text -/
def paddingAt (len i : Nat) (str : Bytes) : Option Bool :=
  if i < len - 2 then some false
  else if i = len - 2 then str[i + 1]?.map fun next => next == 61
  else some true

/-- the loop over the characters, with `rounds` to go: `false` for an error -/
def decodeLoop (len : Nat) : Nat → Nat → UInt8 → Out UInt8 → Option (Bool × Out UInt8)
  | 0, _, _, out => some (true, out)
  | rounds + 1, i, valC, out => do
    let ch ← out.1[i]?
    match base64Value ch with
    | none => if ch = 61 then (paddingAt len i out.1).map fun ok => (ok, out) else some (false, out)
    | some v =>
      if i % 4 = 0 then decodeLoop len rounds (i + 1) ((v <<< 2) &&& 0xFD) out
      else if i % 4 = 1 then do
        let out ← put intLimit out (valC ||| (v >>> 4))
        decodeLoop len rounds (i + 1) ((v <<< 4) &&& 0xF0) out
      else if i % 4 = 2 then do
        let out ← put intLimit out (valC ||| (v >>> 2))
        decodeLoop len rounds (i + 1) ((v <<< 6) &&& 0xD0) out
      else do
        let out ← put intLimit out (valC ||| v)
        decodeLoop len rounds (i + 1) (valC ||| v) out

/-- `oc_base64_decode`: what it returns, and the buffer -/
def ocBase64Decode (str : Bytes) : Option (Int × Bytes) :=
  if str.length % 4 ≠ 0 then some (-1, str)
  else do
    let (ok, out) ← decodeLoop str.length str.length 0 0 (str, 0)
    if ok then
      -- the remaining bytes are zeroed out
      some (out.2, out.1.take out.2 ++ List.replicate (out.1.length - out.2) 0)
    else some (-1, out.1)

/-! ## the masks -/

theorem or_toNat {x y : UInt8} (k m : Nat) (hx : x.toNat = 2^k * m) (hy : y.toNat < 2^k) :
    (x ||| y).toNat = 2^k * m + y.toNat := by
  rw [UInt8.toNat_or, hx, Nat.two_pow_add_eq_or_of_lt hy]

/-- the parts of a byte in the encoder -/
theorem byte_parts : ∀ b : UInt8,
    (b >>> 2).toNat = b.toNat / 4 ∧ ((b <<< 4) &&& 0x30).toNat = 2^4 * (b.toNat % 4) ∧
    (b >>> 4).toNat = b.toNat / 16 ∧ ((b <<< 2) &&& 0x3D).toNat = 2^2 * (b.toNat % 16) ∧
    (b >>> 6).toNat = b.toNat / 64 ∧ (b &&& 0x3F).toNat = b.toNat % 64 :=
  forall_byte (by decide +kernel)

/-- the parts of a sextet in the decoder -/
theorem sextet_parts : ∀ v : UInt8, v.toNat < 64 →
    ((v <<< 2) &&& 0xFD).toNat = 2^2 * v.toNat ∧ (v >>> 4).toNat = v.toNat / 16 ∧
    ((v <<< 4) &&& 0xF0).toNat = 2^4 * (v.toNat % 16) ∧ (v >>> 2).toNat = v.toNat / 4 ∧
    ((v <<< 6) &&& 0xD0).toNat = 2^6 * (v.toNat % 4) :=
  forall_byte (by decide +kernel)

/-! ## encoding -/

theorem encodeLoop_first {i : Nat} (hi : i % 3 = 0) (b : UInt8) (x : Bytes) (val : UInt8)
    (out : Out UInt8) :
    encodeLoop i (b :: x) val out = (putValue out (b >>> 2).toNat).bind fun out =>
      encodeLoop (i + 1) x ((b <<< 4) &&& 0x30) out := by
  rw [encodeLoop, if_pos hi]
  rfl

theorem encodeLoop_second {i : Nat} (hi : i % 3 = 1) (b : UInt8) (x : Bytes) (val : UInt8)
    (out : Out UInt8) :
    encodeLoop i (b :: x) val out = (putValue out (val ||| (b >>> 4)).toNat).bind fun out =>
      encodeLoop (i + 1) x ((b <<< 2) &&& 0x3D) out := by
  rw [encodeLoop, if_neg (by omega), if_pos hi]
  rfl

theorem encodeLoop_third {i : Nat} (hi : i % 3 = 2) (b : UInt8) (x : Bytes) (val : UInt8)
    (out : Out UInt8) :
    encodeLoop i (b :: x) val out = (putValue out (val ||| (b >>> 6)).toNat).bind fun out =>
      (putValue out (b &&& 0x3F).toNat).bind fun out => encodeLoop (i + 1) x (b &&& 0x3F) out := by
  rw [encodeLoop, if_neg (by omega), if_neg (by omega)]
  rfl

/-- the second sextet of a block, and the third -/
theorem second_toNat (a b : UInt8) :
    (((a <<< 4) &&& (0x30 : UInt8)) ||| (b >>> 4)).toNat = a.toNat % 4 * 16 + b.toNat / 16 := by
  have hb := b.toNat_lt
  obtain ⟨-, ha, -⟩ := byte_parts a
  obtain ⟨-, -, hb', -⟩ := byte_parts b
  rw [or_toNat 4 _ ha (by rw [hb']; omega), hb']
  omega

theorem third_toNat (b c : UInt8) :
    (((b <<< 2) &&& (0x3D : UInt8)) ||| (c >>> 6)).toNat = b.toNat % 16 * 4 + c.toNat / 64 := by
  have hc := c.toNat_lt
  obtain ⟨-, -, -, hb, -⟩ := byte_parts b
  obtain ⟨-, -, -, -, hc', -⟩ := byte_parts c
  rw [or_toNat 2 _ hb (by rw [hc']; omega), hc']
  omega

/-- the loop and what comes after it write the sextets of the input -/
theorem encodeLoop_eq : ∀ (x : Bytes) (i : Nat) (val : UInt8) (out : Out UInt8), i % 3 = 0 →
    (encodeLoop i x val out).bind (putRest (i + x.length)) =
      (split (x.map UInt8.toNat)).foldlM putValue out
  | [], i, val, out, hi => if_neg (not_not_intro hi)
  | [a], i, val, out, hi => by
    obtain ⟨h1, h2, -⟩ := byte_parts a
    rw [encodeLoop_first hi, h1, Option.bind_assoc]
    simp only [List.map_cons, List.map_nil, split, List.foldlM_cons]
    refine Option.bind_congr fun out _ => ?_
    have hval : ((a <<< 4) &&& 0x30).toNat = a.toNat % 4 * 16 := by omega
    show putRest (i + 1) ((a <<< 4) &&& 0x30, out) = _
    rw [putRest, if_pos (by omega), hval]
    exact (Option.bind_fun_some _).symm
  | [a, b], i, val, out, hi => by
    obtain ⟨h1, -⟩ := byte_parts a
    obtain ⟨-, -, -, h4, -⟩ := byte_parts b
    rw [encodeLoop_first hi, h1, Option.bind_assoc]
    simp only [List.map_cons, List.map_nil, split, List.foldlM_cons]
    refine Option.bind_congr fun out _ => ?_
    rw [encodeLoop_second (by omega), second_toNat, Option.bind_assoc]
    refine Option.bind_congr fun out _ => ?_
    have hval : ((b <<< 2) &&& 0x3D).toNat = b.toNat % 16 * 4 := by omega
    show putRest (i + 2) ((b <<< 2) &&& 0x3D, out) = _
    rw [putRest, if_pos (by omega), hval]
    exact (Option.bind_fun_some _).symm
  | a :: b :: c :: x, i, val, out, hi => by
    obtain ⟨h1, -⟩ := byte_parts a
    obtain ⟨-, -, -, -, -, h6⟩ := byte_parts c
    rw [encodeLoop_first hi, h1, Option.bind_assoc]
    simp only [List.map_cons, split, List.foldlM_cons]
    refine Option.bind_congr fun out _ => ?_
    rw [encodeLoop_second (by omega), second_toNat, Option.bind_assoc]
    refine Option.bind_congr fun out _ => ?_
    rw [encodeLoop_third (by omega), third_toNat, h6, Option.bind_assoc]
    refine Option.bind_congr fun out _ => ?_
    rw [Option.bind_assoc]
    refine Option.bind_congr fun out _ => ?_
    have hlen : i + (a :: b :: c :: x).length = i + 3 + x.length := by
      simp only [List.length_cons]
      omega
    rw [hlen]
    exact encodeLoop_eq x (i + 3) _ out (by omega)

/-- the character of a sextet -/
def char (v : Nat) : UInt8 := alphabet.getD v 0

theorem putValue_eq {v : Nat} (hv : v < 64) (out : Out UInt8) :
    putValue out v = put intLimit out (char v) := by
  have hlen : v < alphabet.length := Nat.lt_of_lt_of_le hv (by decide)
  unfold putValue char
  rw [List.getD_eq_getElem _ _ hlen, List.getElem?_eq_getElem hlen]
  rfl

theorem foldlM_putValue {l : List Nat} (h : ∀ v ∈ l, v < 64) (out : Out UInt8) :
    l.foldlM putValue out = (l.map char).foldlM (put intLimit) out := by
  induction l generalizing out with
  | nil => rfl
  | cons v l ih =>
    obtain ⟨hv, h⟩ := List.forall_mem_cons.mp h
    rw [List.foldlM_cons, List.map_cons, List.foldlM_cons, putValue_eq hv]
    exact Option.bind_congr fun out _ => ih h out

theorem padLoop_eq (rounds : Nat) (out : Out UInt8) :
    padLoop rounds out = (List.replicate rounds 61).foldlM (put intLimit) out := by
  induction rounds generalizing out with
  | zero => rfl
  | succ rounds ih =>
    rw [List.replicate_succ, List.foldlM_cons]
    exact Option.bind_congr fun out _ => ih out

theorem toNat_lt_of_mem {x : Bytes} : ∀ a ∈ x.map UInt8.toNat, a < 256 := by
  intro a ha
  obtain ⟨b, -, rfl⟩ := List.mem_map.mp ha
  exact b.toNat_lt

/-- `4 * ceil(n / 3)` -/
def charCount (n : Nat) : Nat := 4 * ((n + 2) / 3)

/-- the text of a byte string: the characters of its sextets, and padding -/
def text (x : Bytes) : Bytes :=
  let chars := (split (x.map UInt8.toNat)).map char
  chars ++ List.replicate (charCount x.length - chars.length) 61

theorem length_text (x : Bytes) : (text x).length = charCount x.length := by
  unfold text charCount
  simp only [List.length_append, List.length_replicate, List.length_map, length_split]
  omega

theorem outputLen_eq {n : Nat} (h : charCount n < intLimit) : outputLen n = charCount n := by
  unfold charCount intLimit at h
  unfold outputLen charCount
  split <;> omega

theorem chars_written (x : Bytes) (out : Out UInt8) :
    (encodeLoop 0 x 0 out).bind (putRest x.length) =
      ((split (x.map UInt8.toNat)).map char).foldlM (put intLimit) out := by
  have h := encodeLoop_eq x 0 0 out rfl
  rwa [Nat.zero_add, foldlM_putValue (split_lt toNat_lt_of_mem)] at h

/-- `(int)output_len - j`, as long as the length is an `int` -/
theorem rounds_eq {n j : Nat} (hn : n < intLimit) : ((n : Int).bmod (2^32) - j).toNat = n - j := by
  unfold intLimit at hn
  rw [Int.bmod_eq_of_le (by omega) (by omega)]
  omega

/-- an input, and a buffer that is long enough -/
theorem encode_eq {x buffer : Bytes} (hx : x ≠ []) (hfit : ¬ buffer.length < outputLen x.length) :
    ocBase64Encode x buffer =
      (((split (x.map UInt8.toNat)).map char).foldlM (put intLimit) (buffer, 0)).bind fun out =>
        (padLoop ((outputLen x.length : Int).bmod (2^32) - out.2).toNat out).bind fun out =>
          some ((out.2 : Int), out.1) := by
  rw [← chars_written, Option.bind_assoc]
  unfold ocBase64Encode
  rw [if_neg hfit, emptyText, if_neg (mt List.length_eq_zero_iff.mp hx)]
  rfl

/-- a buffer that is long enough gets the text, if the `int` index comes to its end -/
theorem encode_text {x buffer : Bytes} (hx : x ≠ []) (hfit : charCount x.length ≤ buffer.length)
    (hint : charCount x.length < intLimit) :
    ocBase64Encode x buffer =
      some (((charCount x.length : Nat) : Int), text x ++ buffer.drop (charCount x.length)) := by
  have hlen : ((split (x.map UInt8.toNat)).map char).length ≤ charCount x.length := by
    simp only [List.length_map, length_split]
    unfold charCount
    omega
  obtain ⟨out, hchars⟩ :
      ∃ out, ((split (x.map UInt8.toNat)).map char).foldlM (put intLimit) (buffer, 0) = some out :=
    ⟨_, foldlM_put _ _ (by dsimp only; omega) (by dsimp only; omega)⟩
  obtain ⟨hindex, -⟩ := of_foldlM_put hchars intLimit_pos
  have hrounds : ((outputLen x.length : Int).bmod (2^32) - out.2).toNat =
      charCount x.length - ((split (x.map UInt8.toNat)).map char).length := by
    rw [outputLen_eq hint, rounds_eq hint, hindex, Nat.zero_add]
  have hall : (text x).foldlM (put intLimit) (buffer, 0) =
      some (text x ++ buffer.drop (charCount x.length), charCount x.length) := by
    have h := @foldlM_put _ intLimit (text x) (buffer, 0)
    rw [length_text, Nat.zero_add, List.take_zero, List.nil_append] at h
    exact h hfit hint
  rw [text, List.foldlM_append, hchars] at hall
  rw [encode_eq hx (by rw [outputLen_eq hint]; omega), hchars, Option.bind_some, hrounds, padLoop_eq]
  change List.foldlM _ out _ = _ at hall
  rw [hall]
  rfl

/-- the result is an `int` -/
theorem encode_lt {x buffer buffer' : Bytes} {ret : Int}
    (h : ocBase64Encode x buffer = some (ret, buffer')) : ret < intLimit := by
  unfold ocBase64Encode at h
  split at h
  · obtain ⟨rfl, -⟩ := Prod.mk.inj (Option.some.inj h)
    decide
  · obtain ⟨start, -, h⟩ := Option.bind_eq_some_iff.mp h
    obtain ⟨r, hloop, h⟩ := Option.bind_eq_some_iff.mp h
    obtain ⟨out, hrest, h⟩ := Option.bind_eq_some_iff.mp h
    obtain ⟨out', hpad, h⟩ := Option.bind_eq_some_iff.mp h
    obtain ⟨rfl, -⟩ := Prod.mk.inj (Option.some.inj h)
    have hchars := chars_written x (start, 0)
    rw [hloop, Option.bind_some, hrest] at hchars
    obtain ⟨-, hout⟩ := of_foldlM_put hchars.symm intLimit_pos
    rw [padLoop_eq] at hpad
    exact Int.ofNat_lt.mpr (of_foldlM_put hpad hout).2

/-! ## characters -/

/-- the 64 characters of the Base64 alphabet -/
def InAlphabet (c : UInt8) : Prop := c ∈ alphabet.take 64

instance (c : UInt8) : Decidable (InAlphabet c) := inferInstanceAs (Decidable (c ∈ _))

/-- the sextet of a character -/
def value (c : UInt8) : UInt8 := (base64Value c).getD 0

theorem base64Value_char : ∀ v : Nat, v < 64 → base64Value (char v) = some (UInt8.ofNat v) := by
  decide +kernel

theorem char_inAlphabet {v : Nat} (hv : v < 64) : InAlphabet (char v) := by
  have hlen : v < alphabet.length := Nat.lt_of_lt_of_le hv (by decide)
  unfold char
  rw [List.getD_eq_getElem _ _ hlen]
  exact List.mem_take_iff_getElem.mpr ⟨v, by omega, rfl⟩

theorem value_char {v : Nat} (hv : v < 64) : (value (char v)).toNat = v := by
  rw [value, base64Value_char v hv, Option.getD_some,
    UInt8.toNat_ofNat_of_lt' (Nat.lt_trans hv (by decide))]

/-- every character of the alphabet is that of a sextet -/
theorem exists_char {c : UInt8} (h : InAlphabet c) : ∃ v, v < 64 ∧ char v = c := by
  obtain ⟨v, hv, rfl⟩ := List.mem_take_iff_getElem.mp h
  refine ⟨v, by omega, ?_⟩
  unfold char
  exact List.getD_eq_getElem _ _ (by omega)

theorem base64Value_of {c : UInt8} (h : InAlphabet c) : base64Value c = some (value c) := by
  obtain ⟨v, hv, rfl⟩ := exists_char h
  rw [value, base64Value_char v hv]
  rfl

theorem value_lt {c : UInt8} (h : InAlphabet c) : (value c).toNat < 64 := by
  obtain ⟨v, hv, rfl⟩ := exists_char h
  rwa [value_char hv]

theorem sextets_lt {body : Bytes} (h : ∀ c ∈ body, InAlphabet c) : ∀ v ∈ body.map value, v.toNat < 64 := by
  intro v hv
  obtain ⟨c, hc, rfl⟩ := List.mem_map.mp hv
  exact value_lt (h c hc)

theorem char_value {c : UInt8} (h : InAlphabet c) : char (value c).toNat = c := by
  obtain ⟨v, hv, rfl⟩ := exists_char h
  rw [value_char hv]

theorem base64Value_none {c : UInt8} (h : ¬ InAlphabet c) : base64Value c = none := by
  have hall : ∀ c, base64Value c = none ∨ InAlphabet c := forall_byte (by decide +kernel)
  exact (hall c).resolve_right h

theorem padding_not_inAlphabet : ¬ InAlphabet 61 := by decide

/-! ## decoding -/

/-- the bytes that the loop writes for sextets, from position `i` on -/
def emitted : Nat → UInt8 → List UInt8 → Bytes
  | _, _, [] => []
  | i, valC, v :: vs =>
    if i % 4 = 0 then emitted (i + 1) ((v <<< 2) &&& 0xFD) vs
    else if i % 4 = 1 then (valC ||| (v >>> 4)) :: emitted (i + 1) ((v <<< 4) &&& 0xF0) vs
    else if i % 4 = 2 then (valC ||| (v >>> 2)) :: emitted (i + 1) ((v <<< 6) &&& 0xD0) vs
    else (valC ||| v) :: emitted (i + 1) (valC ||| v) vs

/-- a write behind what has been read -/
theorem put_bind {out : Out UInt8} {ch : UInt8} {i : Nat} {rest : Bytes}
    {f g : Out UInt8 → Option (Bool × Out UInt8)}
    (hi : out.2 ≤ i) (hrest : out.1.drop (i + 1) = rest)
    (h : ∀ out' : Out UInt8, out'.2 ≤ i + 1 → out'.1.drop (i + 1) = rest → f out' = g out') :
    (put intLimit out ch).bind f = (put intLimit out ch).bind g := by
  refine Option.bind_congr fun out' hout => h out' ?_ ?_
  · obtain ⟨rfl, -, -⟩ := put_eq_some hout
    exact Nat.succ_le_succ hi
  · rw [put_drop hout hi, hrest]

/-- the loop on characters of the alphabet, which are followed by something it stops at -/
theorem decodeLoop_body {len rounds : Nat} {ok : Bool} {rest : Bytes} (body : Bytes) (i : Nat)
    (valC : UInt8) (out : Out UInt8) (hbody : ∀ c ∈ body, InAlphabet c)
    (hdrop : out.1.drop i = body ++ rest)
    (hi : out.2 ≤ i)
    (hstop : ∀ valC (out : Out UInt8), out.1.drop (i + body.length) = rest →
      decodeLoop len rounds (i + body.length) valC out = some (ok, out)) :
    decodeLoop len (body.length + rounds) i valC out =
      ((emitted i valC (body.map value)).foldlM (put intLimit) out).map fun out => (ok, out) := by
  induction body generalizing i valC out with
  | nil =>
    rw [List.length_nil, Nat.zero_add]
    exact hstop valC out hdrop
  | cons c body ih =>
    obtain ⟨hc, hbody⟩ := List.forall_mem_cons.mp hbody
    have hread : out.1[i]? = some c := by
      rw [← List.head?_drop, hdrop]
      rfl
    have htail : out.1.drop (i + 1) = body ++ rest := by
      rw [← List.drop_drop, hdrop]
      rfl
    have hsucc : i + (c :: body).length = i + 1 + body.length := by
      rw [List.length_cons]
      omega
    rw [hsucc] at hstop
    have hnext : ∀ valC (out : Out UInt8), out.2 ≤ i + 1 → out.1.drop (i + 1) = body ++ rest →
        decodeLoop len (body.length + rounds) (i + 1) valC out =
          ((emitted (i + 1) valC (body.map value)).foldlM (put intLimit) out).map fun out => (ok, out) :=
      fun valC out hi htail => ih (i + 1) valC out hbody htail hi hstop
    have hcons : ∀ (ch : UInt8) (l : Bytes),
        ((ch :: l).foldlM (put intLimit) out).map (fun out => (ok, out)) =
          (put intLimit out ch).bind fun out => (l.foldlM (put intLimit) out).map fun out => (ok, out) :=
      fun ch l => by
        rw [List.foldlM_cons]
        exact Option.map_bind
    rw [List.length_cons, Nat.add_right_comm, decodeLoop, hread, List.map_cons, emitted]
    show (match base64Value c with | none => _ | some v => _) = _
    rw [base64Value_of hc]
    dsimp only
    by_cases h0 : i % 4 = 0
    · rw [if_pos h0, if_pos h0]
      exact hnext _ out (by omega) htail
    · rw [if_neg h0, if_neg h0]
      by_cases h1 : i % 4 = 1
      · rw [if_pos h1, if_pos h1, hcons]
        exact put_bind hi htail fun out hi htail => hnext _ out hi htail
      · rw [if_neg h1, if_neg h1]
        by_cases h2 : i % 4 = 2
        · rw [if_pos h2, if_pos h2, hcons]
          exact put_bind hi htail fun out hi htail => hnext _ out hi htail
        · rw [if_neg h2, if_neg h2, hcons]
          exact put_bind hi htail fun out hi htail => hnext _ out hi htail

theorem or_ofNat {x y : UInt8} {n : Nat} (h : (x ||| y).toNat = n) : x ||| y = UInt8.ofNat n := by
  rw [← h, UInt8.ofNat_toNat]

/-- the bytes of a block of four, each from two sextets -/
theorem first_byte {p q : UInt8} (hp : p.toNat < 64) (hq : q.toNat < 64) :
    ((p <<< 2) &&& (0xFD : UInt8)) ||| (q >>> 4) = UInt8.ofNat (p.toNat * 4 + q.toNat / 16) := by
  obtain ⟨h1, -⟩ := sextet_parts p hp
  obtain ⟨-, h2, -⟩ := sextet_parts q hq
  refine or_ofNat ?_
  rw [or_toNat 2 _ h1 (by rw [h2]; omega), h2]
  omega

theorem second_byte {q r : UInt8} (hq : q.toNat < 64) (hr : r.toNat < 64) :
    ((q <<< 4) &&& (0xF0 : UInt8)) ||| (r >>> 2) = UInt8.ofNat (q.toNat % 16 * 16 + r.toNat / 4) := by
  obtain ⟨-, -, h3, -⟩ := sextet_parts q hq
  obtain ⟨-, -, -, h4, -⟩ := sextet_parts r hr
  refine or_ofNat ?_
  rw [or_toNat 4 _ h3 (by rw [h4]; omega), h4]
  omega

theorem third_byte {r t : UInt8} (hr : r.toNat < 64) (ht : t.toNat < 64) :
    ((r <<< 6) &&& (0xD0 : UInt8)) ||| t = UInt8.ofNat (r.toNat % 4 * 64 + t.toNat) := by
  obtain ⟨-, -, -, -, h5⟩ := sextet_parts r hr
  refine or_ofNat ?_
  rw [or_toNat 6 _ h5 ht]
  omega

/-- the loop joins the sextets -/
theorem emitted_eq : ∀ (vs : List UInt8) (i : Nat) (valC : UInt8), i % 4 = 0 → (∀ v ∈ vs, v.toNat < 64) →
    emitted i valC vs = (join (vs.map UInt8.toNat)).map UInt8.ofNat
  | [], _, _, _, _ => rfl
  | [p], i, valC, hi, h => by
    rw [emitted, if_pos hi]
    rfl
  | [p, q], i, valC, hi, h => by
    simp only [List.forall_mem_cons] at h
    obtain ⟨hp, hq, -⟩ := h
    rw [emitted, if_pos hi, emitted, if_neg (by omega), if_pos (by omega), first_byte hp hq]
    rfl
  | [p, q, r], i, valC, hi, h => by
    simp only [List.forall_mem_cons] at h
    obtain ⟨hp, hq, hr, -⟩ := h
    rw [emitted, if_pos hi, emitted, if_neg (by omega), if_pos (by omega), emitted, if_neg (by omega),
      if_neg (by omega), if_pos (by omega), first_byte hp hq, second_byte hq hr]
    rfl
  | p :: q :: r :: t :: vs, i, valC, hi, h => by
    simp only [List.forall_mem_cons] at h
    obtain ⟨hp, hq, hr, ht, h⟩ := h
    rw [emitted, if_pos hi, emitted, if_neg (by omega), if_pos (by omega), emitted, if_neg (by omega),
      if_neg (by omega), if_pos (by omega), emitted, if_neg (by omega), if_neg (by omega),
      if_neg (by omega), emitted_eq vs (i + 1 + 1 + 1 + 1) _ (by omega) h, first_byte hp hq,
      second_byte hq hr, third_byte hr ht]
    rfl

/-- the bytes of characters of the alphabet -/
def bytes (body : Bytes) : Bytes := (join ((body.map value).map UInt8.toNat)).map UInt8.ofNat

/-- the text ends here, or in one or two padding characters -/
def PadEnd (rest : Bytes) : Prop := rest = [] ∨ rest = [61] ∨ rest = [61, 61]

instance (rest : Bytes) : Decidable (PadEnd rest) := inferInstanceAs (Decidable (_ ∨ _))

/-- what stops the loop, and how -/
theorem decodeLoop_stop {len i : Nat} {rest : Bytes} (hlen : i + rest.length = len)
    (hrest : rest ≠ [] → 2 ≤ len) (hhead : ∀ c, rest.head? = some c → ¬ InAlphabet c)
    (valC : UInt8) (out : Out UInt8) (hdrop : out.1.drop i = rest) :
    decodeLoop len rest.length i valC out = some (decide (PadEnd rest), out) := by
  cases rest with
  | nil => rfl
  | cons c t =>
    have hread : out.1[i]? = some c := by
      rw [← List.head?_drop, hdrop]
      rfl
    have hnext : out.1[i + 1]? = t.head? := by
      rw [← List.head?_drop, ← List.drop_drop, hdrop]
      rfl
    have h2 := hrest (List.cons_ne_nil c t)
    rw [List.length_cons] at hlen
    rw [List.length_cons, decodeLoop, hread]
    show (match base64Value c with | none => _ | some v => _) = _
    rw [base64Value_none (hhead c rfl)]
    dsimp only
    by_cases hc : c = 61
    · subst hc
      rw [if_pos rfl, paddingAt, hnext]
      cases t with
      | nil =>
        rw [List.length_nil] at hlen
        rw [if_neg (by omega), if_neg (by omega)]
        rfl
      | cons d t =>
        cases t with
        | nil =>
          rw [List.length_singleton] at hlen
          have hpad : (d == 61) = decide (PadEnd [61, d]) := by
            rw [Bool.eq_iff_iff, beq_iff_eq, decide_eq_true_iff]
            simp [PadEnd]
          rw [if_neg (by omega), if_pos (by omega), ← hpad]
          rfl
        | cons e t =>
          simp only [List.length_cons] at hlen
          have hpad : ¬ PadEnd (61 :: d :: e :: t) := by simp [PadEnd]
          rw [if_pos (by omega), decide_eq_false hpad]
          rfl
    · rw [if_neg hc, decide_eq_false]
      rintro (h | h | h)
      · cases h
      · exact hc (List.cons.inj h).1
      · exact hc (List.cons.inj h).1

/-- decoding, by the characters in front of the padding -/
theorem decode_eq {body rest : Bytes} (hbody : ∀ c ∈ body, InAlphabet c)
    (hhead : ∀ c, rest.head? = some c → ¬ InAlphabet c) (hlen : (body ++ rest).length % 4 = 0) :
    ocBase64Decode (body ++ rest) =
      ((bytes body).foldlM (put intLimit) (body ++ rest, 0)).map fun out =>
        if PadEnd rest then
          ((out.2 : Int), out.1.take out.2 ++ List.replicate (out.1.length - out.2) 0)
        else (-1, out.1) := by
  have hloop : decodeLoop (body ++ rest).length (body ++ rest).length 0 0 (body ++ rest, 0) =
      ((bytes body).foldlM (put intLimit) (body ++ rest, 0)).map fun out =>
        (decide (PadEnd rest), out) := by
    rw [bytes, ← emitted_eq _ 0 0 rfl (sextets_lt hbody)]
    rw [List.length_append] at hlen ⊢
    refine decodeLoop_body body 0 0 _ hbody rfl (Nat.le_refl 0) fun valC out hdrop => ?_
    rw [Nat.zero_add] at hdrop ⊢
    refine decodeLoop_stop rfl (fun hne => ?_) hhead valC out hdrop
    have := List.length_pos_iff.mpr hne
    omega
  unfold ocBase64Decode
  rw [if_neg (not_not_intro hlen), hloop]
  cases (bytes body).foldlM (put intLimit) (body ++ rest, 0) with
  | none => rfl
  | some out =>
    by_cases h : PadEnd rest
    · simp [h]
    · simp [h]

/-! ## what is asked of the codec -/

/-- the texts that are well formed -/
def Valid (s : Bytes) : Prop :=
  s.length % 4 = 0 ∧ ∃ body pad, s = body ++ pad ∧ (∀ c ∈ body, InAlphabet c) ∧ PadEnd pad

/-- the number of padding characters -/
def padding (s : Bytes) : Nat := s.count 61

/-- the unused low bits of the last character that is no padding are zero -/
def SpareZero (s : Bytes) : Prop :=
  ∀ c, s[s.length - padding s - 1]? = some c → (value c).toNat % 4 ^ padding s = 0

/-- encoding `x` writes as many characters as it should, and they are decoded to `x` -/
def EncodeKept (x buffer : Bytes) : Prop :=
  ∃ buffer', ocBase64Encode x buffer = some (((charCount x.length : Nat) : Int), buffer') ∧
    ∃ str', ocBase64Decode (buffer'.take (charCount x.length)) = some ((x.length : Int), str') ∧
      str'.take x.length = x

/-- encoding `x` in a buffer gives `s` back, if nothing was lost -/
def GivesBack (x buffer s : Bytes) : Prop :=
  ∃ buffer', ocBase64Encode x buffer = some ((s.length : Int), buffer') ∧
    (buffer'.take s.length = s ↔ SpareZero s)

/-- decoding `s` succeeds when it should, with the length that it should have -/
def DecodeKept (s buffer : Bytes) : Prop :=
  ∃ ret str', ocBase64Decode s = some (ret, str') ∧ (ret ≠ -1 ↔ Valid s) ∧
    (Valid s → ret = ((3 * s.length / 4 - padding s : Nat) : Int) ∧
      GivesBack (str'.take (3 * s.length / 4 - padding s)) buffer s)

/-- the text has fewer than 2^31 characters, and an empty input comes with a byte to write to -/
def EncodeMeets (x buffer : Bytes) : Prop := charCount x.length < intLimit ∧ (x = [] → buffer ≠ [])

/-- a text that is not well formed may be longer: it is decoded up to the first other character -/
def DecodeMeets (s buffer : Bytes) : Prop :=
  s.length % 4 ≠ 0 ∨ (Valid s ∧ s.length < intLimit ∧ (s = [] → buffer ≠ [])) ∨
    (¬ Valid s ∧ 3 * (s.takeWhile fun c => InAlphabet c).length / 4 < intLimit)

/-! ## both ways -/

theorem length_bytes (body : Bytes) : (bytes body).length = 3 * body.length / 4 := by
  simp only [bytes, List.length_map, length_join]

/-- sextets of characters, and bytes of them -/
theorem values_lt {body : Bytes} (h : ∀ c ∈ body, InAlphabet c) :
    ∀ v ∈ (body.map value).map UInt8.toNat, v < 64 := by
  intro v hv
  obtain ⟨w, hw, rfl⟩ := List.mem_map.mp hv
  exact sextets_lt h w hw

theorem toNat_bytes {body : Bytes} (h : ∀ c ∈ body, InAlphabet c) :
    (bytes body).map UInt8.toNat = join ((body.map value).map UInt8.toNat) := by
  rw [bytes, List.map_map]
  refine (List.map_congr_left fun a ha => ?_).trans (List.map_id _)
  exact UInt8.toNat_ofNat_of_lt' (join_lt (values_lt h) a ha)

theorem char_values {body : Bytes} (h : ∀ c ∈ body, InAlphabet c) :
    ((body.map value).map UInt8.toNat).map char = body := by
  rw [List.map_map, List.map_map]
  refine (List.map_congr_left fun c hc => ?_).trans (List.map_id _)
  exact char_value (h c hc)

theorem map_char_injective {l l' : List Nat} (h : ∀ v ∈ l, v < 64) (h' : ∀ v ∈ l', v < 64)
    (he : l.map char = l'.map char) : l = l' := by
  have hback : ∀ l : List Nat, (∀ v ∈ l, v < 64) → (l.map char).map (fun c => (value c).toNat) = l := by
    intro l h
    rw [List.map_map]
    exact (List.map_congr_left fun v hv => value_char (h v hv)).trans (List.map_id _)
  rw [← hback l h, ← hback l' h', he]

/-- the characters of the text of `x`, and what they decode to -/
theorem chars_inAlphabet (x : Bytes) : ∀ c ∈ (split (x.map UInt8.toNat)).map char, InAlphabet c := by
  intro c hc
  obtain ⟨v, hv, rfl⟩ := List.mem_map.mp hc
  exact char_inAlphabet (split_lt toNat_lt_of_mem v hv)

theorem bytes_chars (x : Bytes) : bytes ((split (x.map UInt8.toNat)).map char) = x := by
  have hvs : (((split (x.map UInt8.toNat)).map char).map value).map UInt8.toNat =
      split (x.map UInt8.toNat) := by
    rw [List.map_map, List.map_map]
    refine (List.map_congr_left fun v hv => ?_).trans (List.map_id _)
    exact value_char (split_lt toNat_lt_of_mem v hv)
  rw [bytes, hvs, join_split toNat_lt_of_mem, List.map_map]
  refine (List.map_congr_left fun b _ => ?_).trans (List.map_id _)
  exact UInt8.ofNat_toNat

/-- the bytes fit into the text that they are decoded from -/
theorem bytes_written {body rest : Bytes} (hint : (bytes body).length < intLimit) :
    (bytes body).foldlM (put intLimit) (body ++ rest, 0) =
      some (bytes body ++ (body ++ rest).drop (bytes body).length, (bytes body).length) := by
  have h := @foldlM_put _ intLimit (bytes body) (body ++ rest, 0)
  rw [Nat.zero_add, List.take_zero, List.nil_append] at h
  refine h ?_ hint
  rw [length_bytes, List.length_append]
  omega

/-- a well formed text -/
theorem decode_valid {body rest : Bytes} (hbody : ∀ c ∈ body, InAlphabet c) (hpad : PadEnd rest)
    (hlen : (body ++ rest).length % 4 = 0) (hint : (bytes body).length < intLimit) :
    ∃ tail, ocBase64Decode (body ++ rest) = some (((bytes body).length : Int), bytes body ++ tail) := by
  have hhead : ∀ c, rest.head? = some c → ¬ InAlphabet c := by
    rintro c hc
    rcases hpad with rfl | rfl | rfl
    · cases hc
    · exact Option.some.inj hc ▸ padding_not_inAlphabet
    · exact Option.some.inj hc ▸ padding_not_inAlphabet
  rw [decode_eq hbody hhead hlen, bytes_written hint, Option.map_some, if_pos hpad, List.take_left]
  exact ⟨_, rfl⟩

/-- another text -/
theorem decode_invalid {body rest : Bytes} (hbody : ∀ c ∈ body, InAlphabet c)
    (hhead : ∀ c, rest.head? = some c → ¬ InAlphabet c) (hpad : ¬ PadEnd rest)
    (hlen : (body ++ rest).length % 4 = 0) :
    (∃ str', ocBase64Decode (body ++ rest) = some (-1, str')) ↔ (bytes body).length < intLimit := by
  rw [decode_eq hbody hhead hlen]
  constructor
  · rintro ⟨str', h⟩
    obtain ⟨out, hout, -⟩ := Option.map_eq_some_iff.mp h
    obtain ⟨hindex, hlt⟩ := of_foldlM_put hout intLimit_pos
    rw [Nat.zero_add] at hindex
    rwa [← hindex]
  · intro hint
    rw [bytes_written hint, Option.map_some, if_neg hpad]
    exact ⟨_, rfl⟩

theorem padEnd_replicate {k : Nat} (hk : k ≤ 2) : PadEnd (List.replicate k 61) := by
  unfold PadEnd
  rcases k with _ | _ | _ | k
  · exact Or.inl rfl
  · exact Or.inr (Or.inl rfl)
  · exact Or.inr (Or.inr rfl)
  · omega

/-- the text of `x` is decoded to `x` -/
theorem decode_text {x : Bytes} (hint : charCount x.length < intLimit) :
    ∃ tail, ocBase64Decode (text x) = some ((x.length : Int), x ++ tail) := by
  have hlen := length_text x
  have hbytes := bytes_chars x
  have hx : x.length ≤ charCount x.length := by
    unfold charCount
    omega
  have hpad : charCount x.length - ((split (x.map UInt8.toNat)).map char).length ≤ 2 := by
    simp only [List.length_map, length_split]
    unfold charCount
    omega
  unfold text at hlen ⊢
  obtain ⟨tail, h⟩ := decode_valid (chars_inAlphabet x) (padEnd_replicate hpad)
    (by rw [hlen]; exact Nat.mul_mod_right _ _) (by rw [hbytes]; omega)
  rw [hbytes] at h
  exact ⟨tail, h⟩

theorem encodeKept_iff {x buffer : Bytes} (hfit : charCount x.length ≤ buffer.length) :
    EncodeKept x buffer ↔ EncodeMeets x buffer := by
  constructor
  · rintro ⟨buffer', h, -⟩
    refine ⟨Int.ofNat_lt.mp (encode_lt h), ?_⟩
    rintro rfl rfl
    cases h
  · rintro ⟨hint, hbuf⟩
    by_cases hx : x = []
    · subst hx
      obtain ⟨b, buffer, rfl⟩ := List.exists_cons_of_ne_nil (hbuf rfl)
      exact ⟨_, rfl, [], rfl, rfl⟩
    · obtain ⟨tail, hdec⟩ := decode_text hint
      refine ⟨_, encode_text hx hfit hint, x ++ tail, ?_, List.take_left' rfl⟩
      rwa [List.take_left' (length_text x)]

/-! ## well formed texts -/

theorem takeWhile_inAlphabet (s : Bytes) : ∀ c ∈ s.takeWhile fun c => InAlphabet c, InAlphabet c :=
  fun _ hc => of_decide_eq_true (List.mem_takeWhile_imp (p := fun c => decide (InAlphabet c)) hc)

theorem head_dropWhile (s : Bytes) :
    ∀ c, (s.dropWhile fun c => InAlphabet c).head? = some c → ¬ InAlphabet c := by
  intro c hc
  have h := List.head?_dropWhile_not (fun c => decide (InAlphabet c)) s
  rw [hc] at h
  exact of_decide_eq_false h

theorem valid_iff {s : Bytes} (hlen : s.length % 4 = 0) :
    Valid s ↔ PadEnd (s.dropWhile fun c => InAlphabet c) := by
  constructor
  · rintro ⟨-, body, pad, rfl, hbody, hpad⟩
    rw [List.dropWhile_append_of_pos fun c hc => decide_eq_true (hbody c hc)]
    rcases hpad with rfl | rfl | rfl
    · exact Or.inl rfl
    · exact Or.inr (Or.inl (by decide))
    · exact Or.inr (Or.inr (by decide))
  · exact fun h => ⟨hlen, _, _, List.takeWhile_append_dropWhile.symm, takeWhile_inAlphabet s, h⟩

section
variable {body pad : Bytes} (hbody : ∀ c ∈ body, InAlphabet c) (hpad : PadEnd pad)
  (hlen : (body ++ pad).length % 4 = 0)

theorem length_pad_le (hpad : PadEnd pad) : pad.length ≤ 2 := by
  rcases hpad with rfl | rfl | rfl <;> decide

include hbody hpad in
theorem padding_eq : padding (body ++ pad) = pad.length := by
  have hcount : body.count 61 = 0 := List.count_eq_zero.mpr fun h => padding_not_inAlphabet (hbody 61 h)
  rw [padding, List.count_append, hcount, Nat.zero_add]
  rcases hpad with rfl | rfl | rfl <;> rfl

include hpad hlen in
theorem length_body : body.length % 4 ≠ 1 ∧ (4 - body.length % 4) % 4 = pad.length := by
  have := length_pad_le hpad
  rw [List.length_append] at hlen
  omega

include hbody hpad hlen in
/-- what `split` gets back -/
theorem spareZero_iff : SpareZero (body ++ pad) ↔ spare ((body.map value).map UInt8.toNat) = 0 := by
  obtain ⟨hone, hexp⟩ := length_body hpad hlen
  have hlast := spare_eq (l := (body.map value).map UInt8.toNat) (by simpa only [List.length_map]) 0
  simp only [List.length_map] at hlast
  rw [hlast, hexp, SpareZero, padding_eq hbody hpad, List.length_append, Nat.add_sub_cancel]
  rcases List.eq_nil_or_concat body with rfl | ⟨front, c, rfl⟩
  · have hnil : pad = [] := by
      rw [← List.length_eq_zero_iff, ← hexp]
      rfl
    subst hnil
    exact iff_of_true (fun c hc => nomatch hc) rfl
  · have hget : (front ++ [c] ++ pad)[(front ++ [c]).length - 1]? = some c := by
      rw [List.length_append, List.length_singleton, Nat.add_sub_cancel, List.append_assoc,
        List.getElem?_append_right (Nat.le_refl _), Nat.sub_self]
      rfl
    rw [List.concat_eq_append, hget]
    simp only [List.map_append, List.map_cons, List.map_nil, List.getLastD_concat, Option.some.injEq,
      forall_eq']

include hbody hpad hlen in
/-- encoding what has been decoded -/
theorem text_bytes : text (bytes body) = body ++ pad ↔ SpareZero (body ++ pad) := by
  obtain ⟨hone, hexp⟩ := length_body hpad hlen
  have hvs := values_lt hbody
  rw [spareZero_iff hbody hpad hlen, ← split_join hvs (by simpa only [List.length_map]), text,
    toNat_bytes hbody, length_bytes]
  have hpads : List.replicate (charCount (3 * body.length / 4) -
      ((split (join ((body.map value).map UInt8.toNat))).map char).length) 61 = pad := by
    have hcount : charCount (3 * body.length / 4) -
        ((split (join ((body.map value).map UInt8.toNat))).map char).length = pad.length := by
      have hcases : body.length % 4 = 0 ∨ body.length % 4 = 2 ∨ body.length % 4 = 3 := by omega
      simp only [List.length_map, length_split, length_join]
      unfold charCount
      rw [← hexp]
      rcases hcases with h | h | h <;> rw [h] <;> omega
    rw [hcount]
    rcases hpad with rfl | rfl | rfl <;> rfl
  rw [hpads]
  constructor
  · intro h
    have hchars := (List.append_cancel_right h).trans (char_values hbody).symm
    exact map_char_injective (split_lt (join_lt hvs)) hvs hchars
  · intro h
    rw [h, char_values hbody]

include hpad hlen in
theorem length_decoded : 3 * (body ++ pad).length / 4 - pad.length = (bytes body).length ∧
    charCount (bytes body).length = (body ++ pad).length ∧ (bytes body = [] → body ++ pad = []) := by
  have := length_pad_le hpad
  have hlen' := hlen
  rw [List.length_append] at hlen'
  refine ⟨?_, ?_, fun h => ?_⟩
  · rw [length_bytes, List.length_append]
    omega
  · rw [length_bytes, List.length_append]
    unfold charCount
    omega
  · have hzero := congrArg List.length h
    rw [length_bytes, List.length_nil] at hzero
    rw [← List.length_eq_zero_iff, List.length_append]
    omega

include hbody hpad hlen in
theorem givesBack {buffer : Bytes} (hfit : (body ++ pad).length ≤ buffer.length)
    (hint : (body ++ pad).length < intLimit) (hbuf : body ++ pad = [] → buffer ≠ []) :
    GivesBack (bytes body) buffer (body ++ pad) := by
  obtain ⟨-, hcount, hnil⟩ := length_decoded hpad hlen
  by_cases hx : bytes body = []
  · have hs := hnil hx
    obtain ⟨b, buffer, rfl⟩ := List.exists_cons_of_ne_nil (hbuf hs)
    rw [hx, hs]
    exact ⟨_, rfl, iff_of_true rfl fun c hc => nomatch hc⟩
  · have h : ocBase64Encode (bytes body) buffer = _ := encode_text hx (by rwa [hcount]) (by rwa [hcount])
    rw [hcount] at h
    refine ⟨_, h, ?_⟩
    rw [List.take_left' ((length_text _).trans hcount)]
    exact text_bytes hbody hpad hlen

end

/-- a valid text -/
theorem decodeKept_valid {s buffer : Bytes} (hfit : s.length ≤ buffer.length) (hv : Valid s) :
    DecodeKept s buffer ↔ DecodeMeets s buffer := by
  obtain ⟨hlen, body, pad, rfl, hbody, hpad⟩ := hv
  have hvalid : Valid (body ++ pad) := ⟨hlen, body, pad, rfl, hbody, hpad⟩
  obtain ⟨hret, hcount, -⟩ := length_decoded hpad hlen
  rw [DecodeKept, padding_eq hbody hpad, hret]
  constructor
  · rintro ⟨ret, str', hdec, -, h⟩
    obtain ⟨-, buffer', henc, -⟩ := h hvalid
    refine Or.inr (Or.inl ⟨hvalid, Int.ofNat_lt.mp (encode_lt henc), ?_⟩)
    rintro hs rfl
    obtain ⟨rfl, -⟩ := List.append_eq_nil_iff.mp hs
    rw [show (bytes []).length = 0 from rfl, List.take_zero] at henc
    cases henc
  · intro h
    obtain ⟨hint, hbuf⟩ : (body ++ pad).length < intLimit ∧ (body ++ pad = [] → buffer ≠ []) := by
      rcases h with h | ⟨-, h⟩ | ⟨h, -⟩
      · exact absurd hlen h
      · exact h
      · exact absurd hvalid h
    obtain ⟨tail, hdec⟩ := decode_valid hbody hpad hlen (by omega)
    refine ⟨_, _, hdec, iff_of_true ?_ hvalid, fun _ => ⟨rfl, ?_⟩⟩
    · omega
    · rw [List.take_left' rfl]
      exact givesBack hbody hpad hlen hfit hint hbuf

/-- a text of whole blocks that is not valid -/
theorem decodeKept_invalid {s buffer : Bytes} (hlen : s.length % 4 = 0) (hv : ¬ Valid s) :
    DecodeKept s buffer ↔ DecodeMeets s buffer := by
  have hpad := mt (valid_iff hlen).mpr hv
  have hdec := decode_invalid (takeWhile_inAlphabet s) (head_dropWhile s) hpad
    (by rwa [List.takeWhile_append_dropWhile])
  rw [List.takeWhile_append_dropWhile, length_bytes] at hdec
  constructor
  · rintro ⟨ret, str', h, hret, -⟩
    obtain rfl : ret = -1 := not_not.mp (mt hret.mp hv)
    exact Or.inr (Or.inr ⟨hv, hdec.mp ⟨str', h⟩⟩)
  · rintro (h | ⟨h, -⟩ | ⟨-, h⟩)
    · exact absurd hlen h
    · exact absurd h hv
    · obtain ⟨str', h⟩ := hdec.mpr h
      exact ⟨-1, str', h, iff_of_false (not_not_intro rfl) hv, fun h => absurd h hv⟩

theorem decodeKept_iff {s buffer : Bytes} (hfit : s.length ≤ buffer.length) :
    DecodeKept s buffer ↔ DecodeMeets s buffer := by
  by_cases hv : Valid s
  · exact decodeKept_valid hfit hv
  by_cases hlen : s.length % 4 = 0
  · exact decodeKept_invalid hlen hv
  · refine iff_of_true ⟨-1, s, if_pos hlen, iff_of_false (not_not_intro rfl) hv, fun h => absurd h hv⟩ ?_
    exact Or.inl hlen

/-- encoding and decoding do what is asked of them exactly when the index stays an `int`, and the byte that
is written for an empty input has a place -/
theorem codec_iff (x buffer s buffer' : Bytes) (hx : charCount x.length ≤ buffer.length)
    (hs : s.length ≤ buffer'.length) :
    (EncodeKept x buffer ↔ EncodeMeets x buffer) ∧ (DecodeKept s buffer' ↔ DecodeMeets s buffer') :=
  ⟨encodeKept_iff hx, decodeKept_iff hs⟩

/-- an empty input with an empty buffer -/
theorem encode_outside : ¬ EncodeKept [] [] := by
  rintro ⟨buffer', h, -⟩
  cases h

/-- one byte, and the text `Zg==` -/
theorem codec_iff_padded :
    EncodeKept [102] [0, 0, 0, 0] ∧ DecodeKept [90, 103, 61, 61] [0, 0, 0, 0] := by
  obtain ⟨hx, hs⟩ := codec_iff [102] [0, 0, 0, 0] [90, 103, 61, 61] [0, 0, 0, 0] (by decide) (by decide)
  have hchars : [90, 103].all fun c => decide (InAlphabet c) := by decide
  refine ⟨hx.mpr ⟨lt_intLimit (by decide), fun h => nomatch h⟩,
    hs.mpr (Or.inr (Or.inl ⟨?_, lt_intLimit (by decide), ?_⟩))⟩
  · refine ⟨rfl, [90, 103], [61, 61], rfl, fun c hc => ?_, Or.inr (Or.inr rfl)⟩
    exact of_decide_eq_true (List.all_eq_true.mp hchars c hc)
  · exact fun h => nomatch h

/-! ## the decoder without a buffer -/

theorem emitted_first {i : Nat} (hi : i % 4 = 0) (valC valC' : UInt8) (vs : List UInt8) :
    emitted i valC vs = emitted i valC' vs := by
  cases vs with
  | nil => rfl
  | cons v vs => rw [emitted, emitted, if_pos hi, if_pos hi]

theorem base64Loop_stop {len i : Nat} {rest : Bytes} (hlen : i + rest.length = len)
    (hrest : rest ≠ [] → 2 ≤ len) (hhead : ∀ c, rest.head? = some c → ¬ InAlphabet c)
    (valC : UInt8) (out : Bytes) :
    base64Loop len i rest valC out = if PadEnd rest then some out else none := by
  cases rest with
  | nil => rfl
  | cons c t =>
    have h2 := hrest (List.cons_ne_nil c t)
    rw [base64Loop]
    by_cases hc : c = 61
    · subst hc
      rw [if_pos rfl]
      cases t with
      | nil =>
        rw [List.length_singleton] at hlen
        rw [if_neg (by omega), if_neg (by omega)]
        rfl
      | cons d t =>
        cases t with
        | nil =>
          rw [List.length_cons, List.length_singleton] at hlen
          rw [if_neg (by omega)]
          by_cases hd : d = 61
          · subst hd
            rw [if_neg fun h => h.2 rfl]
            rfl
          · have hpad : ¬ PadEnd [61, d] := by simp [PadEnd, hd]
            rw [if_neg hpad, if_pos ⟨by omega, fun h => hd (Option.some.inj h)⟩]
        | cons e t =>
          simp only [List.length_cons] at hlen
          have hpad : ¬ PadEnd (61 :: d :: e :: t) := by simp [PadEnd]
          rw [if_pos (by omega), if_neg hpad]
    · have hpad : ¬ PadEnd (c :: t) := by simp [PadEnd, hc]
      rw [if_neg hc, if_neg hpad, base64Value_none (hhead c rfl)]

theorem base64Loop_body {len : Nat} {rest : Bytes} (body : Bytes) (i : Nat) (valC : UInt8) (out : Bytes)
    (hbody : ∀ c ∈ body, InAlphabet c)
    (hstop : ∀ valC out, base64Loop len (i + body.length) rest valC out =
      if PadEnd rest then some out else none) :
    base64Loop len i (body ++ rest) valC out =
      if PadEnd rest then some (out ++ emitted i valC (body.map value)) else none := by
  induction body generalizing i valC out with
  | nil =>
    rw [List.nil_append, List.map_nil, emitted, List.append_nil]
    exact hstop valC out
  | cons c body ih =>
    obtain ⟨hc, hbody⟩ := List.forall_mem_cons.mp hbody
    have hne : c ≠ 61 := fun h => padding_not_inAlphabet (h ▸ hc)
    have hsucc : i + (c :: body).length = i + 1 + body.length := by
      rw [List.length_cons]
      omega
    rw [hsucc] at hstop
    have hnext := fun valC out => ih (i + 1) valC out hbody hstop
    have hcons : ∀ (b : UInt8) (l : Bytes), out ++ [b] ++ l = out ++ b :: l := fun b l => by
      rw [List.append_assoc]
      rfl
    rw [List.cons_append, base64Loop, if_neg hne, base64Value_of hc, List.map_cons, emitted]
    dsimp only
    by_cases h0 : i % 4 = 0
    · rw [if_pos h0, if_pos h0, hnext]
    · rw [if_neg h0, if_neg h0]
      by_cases h1 : i % 4 = 1
      · rw [if_pos h1, if_pos h1, hnext, hcons]
      · rw [if_neg h1, if_neg h1]
        by_cases h2 : i % 4 = 2
        · rw [if_pos h2, if_pos h2, hnext, hcons]
        · rw [if_neg h2, if_neg h2, hnext, hcons, emitted_first (by omega)]

/-- decoding in place gives the bytes that the decoder without a buffer gives -/
theorem decode_agrees {s : Bytes} (hint : s.length < intLimit) :
    (∀ b, Security.ocBase64Decode s = some b →
        ∃ tail, ocBase64Decode s = some ((b.length : Int), b ++ tail)) ∧
      (Security.ocBase64Decode s = none → ∃ str', ocBase64Decode s = some (-1, str')) := by
  by_cases hlen : s.length % 4 = 0
  · obtain ⟨body, rest, rfl, hbody, hhead⟩ : ∃ body rest, s = body ++ rest ∧ (∀ c ∈ body, InAlphabet c) ∧
        ∀ c, rest.head? = some c → ¬ InAlphabet c :=
      ⟨_, _, List.takeWhile_append_dropWhile.symm, takeWhile_inAlphabet s, head_dropWhile s⟩
    have hloop : Security.ocBase64Decode (body ++ rest) =
        if PadEnd rest then some (bytes body) else none := by
      rw [Security.ocBase64Decode, if_neg (not_not_intro hlen)]
      refine (base64Loop_body body 0 0 [] hbody fun valC out => ?_).trans ?_
      · rw [List.length_append] at hlen ⊢
        rw [Nat.zero_add]
        refine base64Loop_stop rfl (fun hne => ?_) hhead valC out
        have := List.length_pos_iff.mpr hne
        omega
      · rw [emitted_eq _ 0 0 rfl (sextets_lt hbody), List.nil_append]
        rfl
    have hbytes : (bytes body).length < intLimit := by
      rw [List.length_append] at hint
      rw [length_bytes]
      omega
    rw [hloop]
    by_cases hpad : PadEnd rest
    · rw [if_pos hpad]
      refine ⟨fun b hb => ?_, fun h => nomatch h⟩
      obtain rfl := Option.some.inj hb
      exact decode_valid hbody hpad hlen hbytes
    · rw [if_neg hpad]
      exact ⟨fun b hb => (nomatch hb), fun _ => (decode_invalid hbody hhead hpad hlen).mpr hbytes⟩
  · rw [Security.ocBase64Decode, if_pos hlen]
    exact ⟨fun b hb => (nomatch hb), fun _ => ⟨s, if_pos hlen⟩⟩

end Base64
