import Mathlib.Algebra.Group.Nat.Defs
import VasalAgent.Stream.Incremental

/-!
# Length-prefixed frames

`vasal_sidecar_sdk::codec`: a frame is a big-endian `u32` length and a payload.
The decoder is a lawful `Stream.Decoder`, so the driver of a `Framed` stream
gives the same frames however the bytes arrive.

The encoder compares a payload with the limit before its length is cast to `u32`:
with a limit that the header cannot hold, a longer payload is cut into other frames
(`drain_wireBytes`).
-/

namespace VasalAgent.Sdk

open VasalAgent.Stream

abbrev Bytes := List UInt8

def maxMessageSize : Nat := 4 * 1024 * 1024

def headerLen : Nat := 4

/-! ## Headers -/

/-- `u32::from_be_bytes`. -/
def fromBeBytes (a b c d : UInt8) : Nat :=
  ((a.toNat * 256 + b.toNat) * 256 + c.toNat) * 256 + d.toNat

/-- The bytes of `put_u32`. -/
def toBeBytes (value : Nat) : Bytes :=
  [UInt8.ofNat (value / 256 / 256 / 256), UInt8.ofNat (value / 256 / 256),
    UInt8.ofNat (value / 256), UInt8.ofNat value]

theorem length_toBeBytes (value : Nat) : (toBeBytes value).length = headerLen := rfl

theorem fromBeBytes_lt (a b c d : UInt8) : fromBeBytes a b c d < 2 ^ 32 := by
  have := a.toNat_lt
  have := b.toNat_lt
  have := c.toNat_lt
  have := d.toNat_lt
  unfold fromBeBytes
  omega

theorem toBeBytes_fromBeBytes (a b c d : UInt8) :
    toBeBytes (fromBeBytes a b c d) = [a, b, c, d] := by
  have := a.toNat_lt
  have := b.toNat_lt
  have := c.toNat_lt
  have := d.toNat_lt
  simp only [toBeBytes, fromBeBytes, List.cons.injEq, ← UInt8.toNat_inj, UInt8.toNat_ofNat',
    and_true]
  omega

theorem fromBeBytes_toBeBytes {value : Nat} (h : value < 2 ^ 32) :
    fromBeBytes (.ofNat (value / 256 / 256 / 256)) (.ofNat (value / 256 / 256))
      (.ofNat (value / 256)) (.ofNat value) = value := by
  simp only [fromBeBytes, UInt8.toNat_ofNat']
  omega

/-! ## Codec -/

structure LengthPrefixCodec where
  maxSize : Nat

namespace LengthPrefixCodec

def new : LengthPrefixCodec := ⟨maxMessageSize⟩

def withMaxSize (maxSize : Nat) : LengthPrefixCodec := ⟨maxSize⟩

variable (codec : LengthPrefixCodec)

def exceedsLimit (len : Nat) : String :=
  "frame payload " ++ toString len ++ " bytes exceeds limit of " ++
    toString codec.maxSize ++ " bytes"

/-- The outcome, and the buffer as the call leaves it. -/
def decode (src : Bytes) : Except String (Option Bytes) × Bytes :=
  match src with
  | a :: b :: c :: d :: rest =>
      let payloadLen := fromBeBytes a b c d
      if codec.maxSize < payloadLen then (.error (codec.exceedsLimit payloadLen), src)
      else if src.length < headerLen + payloadLen then (.ok none, src)
      else (.ok (some (rest.take payloadLen)), rest.drop payloadLen)
  | _ => (.ok none, src)

/-- The length is cast to `u32`. -/
def encode (data dst : Bytes) : Except String Unit × Bytes :=
  if codec.maxSize < data.length then (.error (codec.exceedsLimit data.length), dst)
  else (.ok (), dst ++ toBeBytes (data.length % 2 ^ 32) ++ data)

/-- Encode into one buffer until an error. -/
def encodeAll : List Bytes → Bytes → Except String Unit × Bytes
  | [], dst => (.ok (), dst)
  | data :: later, dst =>
      match codec.encode data dst with
      | (.ok (), dst') => encodeAll later dst'
      | (.error e, dst') => (.error e, dst')

/-! ## One frame -/

def frameBytes (data : Bytes) : Bytes := toBeBytes data.length ++ data

variable {codec} {src data rest : Bytes}

/-- A header takes as many of the bytes after it as it says. -/
theorem decode_header {len : Nat} (hsize : len ≤ codec.maxSize) (hlen : len < 2 ^ 32)
    {tail : Bytes} (htail : len ≤ tail.length) :
    codec.decode (toBeBytes len ++ tail) = (.ok (some (tail.take len)), tail.drop len) := by
  have hlong : ¬ (toBeBytes len ++ tail).length < headerLen + len := by
    rw [List.length_append, length_toBeBytes]
    omega
  simp only [toBeBytes, List.cons_append, List.nil_append] at hlong ⊢
  simp only [decode, fromBeBytes_toBeBytes hlen]
  rw [if_neg (Nat.not_lt.mpr hsize), if_neg hlong]

theorem decode_frameBytes (hsize : data.length ≤ codec.maxSize) (hlen : data.length < 2 ^ 32)
    (rest : Bytes) : codec.decode (frameBytes data ++ rest) = (.ok (some data), rest) := by
  have htail : data.length ≤ (data ++ rest).length := by simp
  rw [frameBytes, List.append_assoc, decode_header hsize hlen htail, List.take_left,
    List.drop_left]

theorem decode_frame (h : codec.decode src = (.ok (some data), rest)) :
    data.length ≤ codec.maxSize ∧ data.length < 2 ^ 32 ∧ src = frameBytes data ++ rest := by
  unfold decode at h
  split at h
  next a b c d tail =>
      dsimp only at h
      have hlt := fromBeBytes_lt a b c d
      have hheader := toBeBytes_fromBeBytes a b c d
      generalize fromBeBytes a b c d = payloadLen at h hlt hheader
      split at h
      · cases h
      · split at h
        · cases h
        next hsize hlong =>
            cases h
            have hlen : (tail.take payloadLen).length = payloadLen := by
              simp only [List.length_cons, headerLen] at hlong
              simp
              omega
            rw [frameBytes, hlen, hheader]
            refine ⟨by omega, hlt, ?_⟩
            simp
  next => cases h

theorem decode_keeps {outcome : Except String (Option Bytes)}
    (h : codec.decode src = (outcome, rest)) (hframe : ∀ data, outcome ≠ .ok (some data)) :
    rest = src := by
  unfold decode at h
  split at h
  · dsimp only at h
    split at h
    · cases h
      rfl
    · split at h
      · cases h
        rfl
      · cases h
        exact absurd rfl (hframe _)
  · cases h
    rfl

theorem decode_error_append {e : String} (h : codec.decode src = (.error e, rest))
    (more : Bytes) : codec.decode (src ++ more) = (.error e, rest ++ more) := by
  have hkeeps := decode_keeps h (by simp)
  unfold decode at h
  split at h
  next a b c d tail =>
      dsimp only at h
      split at h
      next hsize =>
          cases h
          simp [decode, hsize]
      next =>
          split at h <;> cases h
  next => cases h

/-! ## The decoder as a stream decoder -/

def decoder (codec : LengthPrefixCodec) : Decoder UInt8 Bytes String where
  decode := codec.decode
  shrinks := by
    intro src data rest h
    rw [(decode_frame h).2.2]
    simp only [frameBytes, List.length_append, length_toBeBytes, headerLen]
    omega

theorem decoder_incremental (codec : LengthPrefixCodec) : codec.decoder.Incremental where
  empty := rfl
  keeps_none h := decode_keeps h (by simp)
  keeps_error h := decode_keeps h (by simp)
  frame_append := by
    intro src data rest more h
    obtain ⟨hsize, hlen, rfl⟩ := decode_frame h
    rw [List.append_assoc]
    exact decode_frameBytes hsize hlen _
  error_append more h := decode_error_append h more

theorem decoder_inverts (codec : LengthPrefixCodec) : codec.decoder.Inverts frameBytes :=
  fun h => (decode_frame h).2.2

theorem encode_eq (hsize : data.length ≤ codec.maxSize) (hlen : data.length < 2 ^ 32)
    (dst : Bytes) : codec.encode data dst = (.ok (), dst ++ frameBytes data) := by
  rw [encode, if_neg (Nat.not_lt.mpr hsize), Nat.mod_eq_of_lt hlen, frameBytes,
    List.append_assoc]

theorem encodeAll_eq {payloads : List Bytes}
    (hsize : ∀ data ∈ payloads, data.length ≤ codec.maxSize)
    (hlen : ∀ data ∈ payloads, data.length < 2 ^ 32) (dst : Bytes) :
    codec.encodeAll payloads dst = (.ok (), dst ++ payloads.flatMap frameBytes) := by
  induction payloads generalizing dst with
  | nil => simp [encodeAll]
  | cons data later ih =>
      have hdata := encode_eq (hsize data List.mem_cons_self) (hlen data List.mem_cons_self) dst
      simp only [encodeAll, hdata]
      rw [ih (fun other hother => hsize other (List.mem_cons_of_mem data hother))
        fun other hother => hlen other (List.mem_cons_of_mem data hother)]
      simp

/-! ## Streams of frames -/

theorem drain_flatMap_frameBytes {payloads : List Bytes}
    (hsize : ∀ data ∈ payloads, data.length ≤ codec.maxSize)
    (hlen : ∀ data ∈ payloads, data.length < 2 ^ 32) :
    codec.decoder.drain (payloads.flatMap frameBytes) = ⟨payloads, none, []⟩ :=
  Decoder.drain_encoded rfl fun data hdata rest =>
    decode_frameBytes (hsize data hdata) (hlen data hdata) rest

/-- The frames come out as they went in, wherever the bytes are cut. -/
theorem feedAll_encodeAll (codec : LengthPrefixCodec) (hmax : codec.maxSize < 2 ^ 32)
    (payloads : List Bytes) (hsize : ∀ data ∈ payloads, data.length ≤ codec.maxSize) :
    ∃ bytes, codec.encodeAll payloads [] = (.ok (), bytes) ∧
      ∀ chunks, chunks.flatten = bytes →
        codec.decoder.feedAll [] chunks = ⟨payloads, none, []⟩ := by
  have hlen : ∀ data ∈ payloads, data.length < 2 ^ 32 :=
    fun data hdata => Nat.lt_of_le_of_lt (hsize data hdata) hmax
  refine ⟨payloads.flatMap frameBytes, encodeAll_eq hsize hlen [], fun chunks hchunks => ?_⟩
  have hagree := codec.decoder_incremental.feedAll_agree_drain chunks
  rw [hchunks, drain_flatMap_frameBytes hsize hlen] at hagree
  exact hagree.eq rfl

theorem feedAll_encodeAll_split :
    ∃ bytes, (withMaxSize 8).encodeAll [[1, 2], [], [3]] [] = (.ok (), bytes) ∧
      ∀ chunks, chunks.flatten = bytes →
        (withMaxSize 8).decoder.feedAll [] chunks = ⟨[[1, 2], [], [3]], none, []⟩ :=
  feedAll_encodeAll (withMaxSize 8) (by decide) _ (by decide)

/-- What the driver makes of any bytes in any chunks. -/
structure DecodesFaithfully (codec : LengthPrefixCodec) (chunks : List Bytes) : Prop where
  uncut : Decoder.Agree (codec.decoder.feedAll [] chunks)
    (codec.decoder.drain chunks.flatten)
  /-- The frames and the buffer are the bytes of the chunks read; an error ends the reading. -/
  conserved : ∃ read unread bytes, chunks = read ++ unread ∧
    ((codec.decoder.feedAll [] chunks).error = none → unread = []) ∧
    codec.encodeAll (codec.decoder.feedAll [] chunks).frames [] = (.ok (), bytes) ∧
    bytes ++ (codec.decoder.feedAll [] chunks).buffer = read.flatten
  bounded : ∀ data ∈ (codec.decoder.feedAll [] chunks).frames, data.length ≤ codec.maxSize
  kept : ∀ src outcome rest, codec.decode src = (outcome, rest) →
    (∀ data, outcome ≠ .ok (some data)) → rest = src

theorem decodesFaithfully (codec : LengthPrefixCodec) (chunks : List Bytes) :
    DecodesFaithfully codec chunks := by
  have huncut := codec.decoder_incremental.feedAll_agree_drain chunks
  have hframes : ∀ data ∈ (codec.decoder.feedAll [] chunks).frames,
      data.length ≤ codec.maxSize ∧ data.length < 2 ^ 32 := by
    rw [huncut.frames]
    exact Decoder.drain_frames (fun h => ⟨(decode_frame h).1, (decode_frame h).2.1⟩) _
  have hbounded := fun data hdata => (hframes data hdata).1
  refine ⟨huncut, ?_, hbounded, fun _ _ _ => decode_keeps⟩
  obtain ⟨read, unread, hchunks, hread, hunread⟩ :=
    Decoder.feedAll_conserves codec.decoder_incremental codec.decoder_inverts [] chunks
  refine ⟨read, unread, _, hchunks, hunread,
    encodeAll_eq hbounded (fun data hdata => (hframes data hdata).2) [], ?_⟩
  rw [List.nil_append, hread, List.nil_append]

/-! ## Payloads beyond the header -/

/-- What `encode` appends: the header has the length modulo `2 ^ 32`. -/
def wireBytes (data : Bytes) : Bytes := toBeBytes (data.length % 2 ^ 32) ++ data

theorem encode_appends (hsize : data.length ≤ codec.maxSize) (dst : Bytes) :
    codec.encode data dst = (.ok (), dst ++ wireBytes data) := by
  rw [encode, if_neg (Nat.not_lt.mpr hsize), wireBytes, List.append_assoc]

theorem encode_refuses (hsize : codec.maxSize < data.length) (dst : Bytes) :
    codec.encode data dst = (.error (codec.exceedsLimit data.length), dst) := by
  rw [encode, if_pos hsize]

theorem decode_wireBytes (hsize : data.length ≤ codec.maxSize) (rest : Bytes) :
    codec.decode (wireBytes data ++ rest) =
      (.ok (some (data.take (data.length % 2 ^ 32))),
        data.drop (data.length % 2 ^ 32) ++ rest) := by
  have hle : data.length % 2 ^ 32 ≤ data.length := Nat.mod_le _ _
  have htail : data.length % 2 ^ 32 ≤ (data ++ rest).length := by
    rw [List.length_append]
    omega
  rw [wireBytes, List.append_assoc,
    decode_header (Nat.le_trans hle hsize) (Nat.mod_lt _ (by decide)) htail,
    List.take_append_of_le_length hle, List.drop_append_of_le_length hle]

/-- `encode` refuses the payload, or appends a frame that is read back as the payload. -/
inductive ReadsBack (codec : LengthPrefixCodec) (data dst : Bytes) : Prop
  | refused (e : String) (hencode : codec.encode data dst = (.error e, dst))
  | framed (frame : Bytes) (hencode : codec.encode data dst = (.ok (), dst ++ frame))
      (hdecode : ∀ rest, codec.decode (frame ++ rest) = (.ok (some data), rest))

theorem ReadsBack.fits {dst : Bytes} (h : ReadsBack codec data dst) :
    codec.maxSize < data.length ∨ data.length < 2 ^ 32 := by
  rcases Nat.lt_or_ge codec.maxSize data.length with hlong | hsize
  · exact .inl hlong
  have happends := encode_appends hsize dst
  cases h with
  | refused e hencode =>
      rw [happends] at hencode
      cases hencode
  | framed frame hencode hdecode =>
      -- the bytes that are read back are those the header counts
      rw [happends, Prod.mk.injEq, List.append_cancel_left_eq] at hencode
      obtain ⟨-, rfl⟩ := hencode
      have hread := hdecode []
      rw [decode_wireBytes hsize, Prod.mk.injEq, Except.ok.injEq, Option.some.injEq] at hread
      have hlength := congrArg List.length hread.1
      rw [List.length_take] at hlength
      omega

theorem readsBack_of_fits (h : codec.maxSize < data.length ∨ data.length < 2 ^ 32)
    (dst : Bytes) : ReadsBack codec data dst := by
  rcases Nat.lt_or_ge codec.maxSize data.length with hlong | hsize
  · exact .refused _ (encode_refuses hlong dst)
  · have hlen : data.length < 2 ^ 32 := by omega
    exact .framed _ (encode_eq hsize hlen dst) (decode_frameBytes hsize hlen)

/-- Of the payloads within the limit, those whose length fits the header are read back. -/
theorem readsBack_iff (maxSize : Nat) (data dst : Bytes) :
    ReadsBack (withMaxSize maxSize) data dst ↔ maxSize < data.length ∨ data.length < 2 ^ 32 :=
  ⟨ReadsBack.fits, fun h => readsBack_of_fits h dst⟩

theorem wireBytes_of_multiple (h : data.length % 2 ^ 32 = 0) :
    wireBytes data = [0, 0, 0, 0] ++ data := by
  rw [wireBytes, h]
  rfl

/-- Under a limit of `usize::MAX` a payload of 4 GiB is sent, and read as an empty one. -/
theorem header_wrapped :
    (withMaxSize (2 ^ 64 - 1)).encode (List.replicate (2 ^ 32) 7) [] =
        (.ok (), [0, 0, 0, 0] ++ List.replicate (2 ^ 32) 7) ∧
      (withMaxSize (2 ^ 64 - 1)).decode ([0, 0, 0, 0] ++ List.replicate (2 ^ 32) 7) =
        (.ok (some []), List.replicate (2 ^ 32) 7) ∧
      ¬ ReadsBack (withMaxSize (2 ^ 64 - 1)) (List.replicate (2 ^ 32) 7) [] := by
  have hlength : (List.replicate (2 ^ 32) (7 : UInt8)).length = 2 ^ 32 := List.length_replicate
  -- a list of this length is not to be evaluated
  generalize List.replicate (2 ^ 32) (7 : UInt8) = data at hlength ⊢
  have hzero : data.length % 2 ^ 32 = 0 := by omega
  have hsize : data.length ≤ (withMaxSize (2 ^ 64 - 1)).maxSize := by
    change data.length ≤ 2 ^ 64 - 1
    omega
  refine ⟨?_, ?_, fun h => ?_⟩
  · rw [encode_appends hsize, wireBytes_of_multiple hzero, List.nil_append]
  · have hread := decode_wireBytes hsize []
    rw [List.append_nil, List.append_nil, hzero, wireBytes_of_multiple hzero] at hread
    exact hread
  · have hfits := h.fits
    omega

/-- The bytes that the header does not count are read as frames of their own. -/
theorem drain_wireBytes (hsize : data.length ≤ codec.maxSize) {inner : List Bytes}
    {filler : Bytes}
    (hinner : ∀ frame ∈ inner, frame.length ≤ codec.maxSize ∧ frame.length < 2 ^ 32)
    (hdata : data.drop (data.length % 2 ^ 32) = inner.flatMap frameBytes ++ filler)
    (rest : Bytes) :
    codec.decoder.drain (wireBytes data ++ rest) =
      .prepend (data.take (data.length % 2 ^ 32) :: inner)
        (codec.decoder.drain (filler ++ rest)) := by
  have hframes : codec.decoder.drain (inner.flatMap frameBytes) = ⟨inner, none, []⟩ :=
    drain_flatMap_frameBytes (fun frame hframe => (hinner frame hframe).1)
      fun frame hframe => (hinner frame hframe).2
  have hinside := codec.decoder_incremental.drain_append hframes (filler ++ rest)
  rw [Decoder.drain_frame (decode_wireBytes hsize rest), hdata, List.append_assoc, hinside]
  rfl

end LengthPrefixCodec

end VasalAgent.Sdk
