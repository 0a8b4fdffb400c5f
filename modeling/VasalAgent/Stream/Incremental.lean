import Mathlib.Data.List.Basic

/-!
# Incremental decoding

A decoder looks at a buffer and takes a frame off its front, asks for more or
fails.  A driver appends the chunks of a stream to the buffer as they come and
decodes after each one for as long as frames come out.  For a decoder that reads
no further than its frame (`Incremental`) the chunks do not matter
(`feedAll_agree_drain`); for one that inverts an encoding (`Inverts`) nothing that
was fed is lost.
-/

namespace VasalAgent.Stream

structure Decoder (α φ ε : Type) where
  /-- The outcome of one call and the buffer it leaves. -/
  decode : List α → Except ε (Option φ) × List α
  shrinks : ∀ {buffer frame rest}, decode buffer = (.ok (some frame), rest) →
    rest.length < buffer.length

/-- The frames that came out, the error that ended it if any, and the buffer left. -/
structure Decoded (α φ ε : Type) where
  frames : List φ
  error : Option ε
  buffer : List α

namespace Decoded

variable {α φ ε : Type}

def prepend (frames : List φ) (later : Decoded α φ ε) : Decoded α φ ε :=
  { later with frames := frames ++ later.frames }

@[simp] theorem prepend_frames (frames : List φ) (later : Decoded α φ ε) :
    (prepend frames later).frames = frames ++ later.frames := rfl

@[simp] theorem prepend_error (frames : List φ) (later : Decoded α φ ε) :
    (prepend frames later).error = later.error := rfl

@[simp] theorem prepend_buffer (frames : List φ) (later : Decoded α φ ε) :
    (prepend frames later).buffer = later.buffer := rfl

end Decoded

namespace Decoder

variable {α φ ε : Type} (d : Decoder α φ ε)

/-- Decode until no frame comes out. -/
def drain (buffer : List α) : Decoded α φ ε :=
  match h : d.decode buffer with
  | (.ok (some frame), rest) =>
      have := d.shrinks h
      .prepend [frame] (drain rest)
  | (.ok none, rest) => ⟨[], none, rest⟩
  | (.error e, rest) => ⟨[], some e, rest⟩
  termination_by buffer.length

/-- Append and drain chunk after chunk; an error ends the stream. -/
def feedAll : List α → List (List α) → Decoded α φ ε
  | buffer, [] => ⟨[], none, buffer⟩
  | buffer, chunk :: later =>
      match d.drain (buffer ++ chunk) with
      | ⟨frames, some e, rest⟩ => ⟨frames, some e, rest⟩
      | ⟨frames, none, rest⟩ => .prepend frames (feedAll rest later)

/--
The first frame of a stream: the buffer is decoded before each read, and when
the stream has ended a buffer that is not empty is the error `truncated`.
-/
def next (truncated : ε) : List α → List (List α) → Option (Except ε φ)
  | buffer, chunks =>
      match d.decode buffer with
      | (.ok (some frame), _) => some (.ok frame)
      | (.error e, _) => some (.error e)
      | (.ok none, rest) =>
          match chunks with
          | [] => if rest.isEmpty then none else some (.error truncated)
          | chunk :: later => next truncated (rest ++ chunk) later
  termination_by structural _ chunks => chunks

variable {d} {buffer rest : List α} {frame : φ} {e : ε}

theorem drain_frame (h : d.decode buffer = (.ok (some frame), rest)) :
    d.drain buffer = .prepend [frame] (d.drain rest) := by
  rw [drain]
  split <;> simp_all

theorem drain_frame_inv (h : d.decode buffer = (.ok (some frame), rest)) {frames : List φ}
    {error : Option ε} {left : List α} (hdrain : d.drain buffer = ⟨frames, error, left⟩) :
    ∃ later, frames = frame :: later ∧ d.drain rest = ⟨later, error, left⟩ := by
  rw [drain_frame h] at hdrain
  rcases hrest : d.drain rest with ⟨later, error', left'⟩
  rw [hrest] at hdrain
  cases hdrain
  exact ⟨later, rfl, rfl⟩

theorem drain_none (h : d.decode buffer = (.ok none, rest)) :
    d.drain buffer = ⟨[], none, rest⟩ := by
  rw [drain]
  split <;> simp_all

theorem drain_error (h : d.decode buffer = (.error e, rest)) :
    d.drain buffer = ⟨[], some e, rest⟩ := by
  rw [drain]
  split <;> simp_all

/-- Induction along `drain`. -/
theorem drain_induction {motive : List α → Prop}
    (hframe : ∀ buffer frame rest, d.decode buffer = (.ok (some frame), rest) →
      motive rest → motive buffer)
    (hnone : ∀ buffer rest, d.decode buffer = (.ok none, rest) → motive buffer)
    (herror : ∀ buffer e rest, d.decode buffer = (.error e, rest) → motive buffer)
    (buffer : List α) : motive buffer := by
  induction hn : buffer.length using Nat.strongRecOn generalizing buffer with
  | ind n ih =>
      rcases h : d.decode buffer with ⟨e | _ | frame, rest⟩
      · exact herror buffer e rest h
      · exact hnone buffer rest h
      · exact hframe buffer frame rest h (ih rest.length (hn ▸ d.shrinks h) rest rfl)

/-! ## Independence of the chunks -/

/-- The decoder reads no further than its frame, and keeps the buffer otherwise. -/
structure Incremental (d : Decoder α φ ε) : Prop where
  empty : d.decode [] = (.ok none, [])
  keeps_none : ∀ {buffer rest}, d.decode buffer = (.ok none, rest) → rest = buffer
  keeps_error : ∀ {buffer e rest}, d.decode buffer = (.error e, rest) → rest = buffer
  frame_append : ∀ {buffer frame rest} (more), d.decode buffer = (.ok (some frame), rest) →
    d.decode (buffer ++ more) = (.ok (some frame), rest ++ more)
  error_append : ∀ {buffer e rest} (more), d.decode buffer = (.error e, rest) →
    d.decode (buffer ++ more) = (.error e, rest ++ more)

/-- Equal but for what is left after an error. -/
structure Agree (a b : Decoded α φ ε) : Prop where
  frames : a.frames = b.frames
  error : a.error = b.error
  buffer : a.error = none → a.buffer = b.buffer

theorem Agree.prepend {a b : Decoded α φ ε} (h : Agree a b) (frames : List φ) :
    Agree (.prepend frames a) (.prepend frames b) :=
  ⟨congrArg (frames ++ ·) h.frames, h.error, h.buffer⟩

theorem Agree.eq {a b : Decoded α φ ε} (h : Agree a b) (herror : b.error = none) : a = b := by
  have hbuffer := h.buffer (h.error.trans herror)
  obtain ⟨frames, error, buffer⟩ := a
  obtain ⟨hframes, herror, -⟩ := h
  cases hframes
  cases herror
  cases hbuffer
  rfl

namespace Incremental

variable (hd : d.Incremental)
include hd

theorem drain_append_error {frames : List φ} (h : d.drain buffer = ⟨frames, some e, rest⟩)
    (more : List α) : d.drain (buffer ++ more) = ⟨frames, some e, rest ++ more⟩ := by
  induction buffer using d.drain_induction generalizing frames with
  | hframe buffer frame rest' hdecode ih =>
      obtain ⟨later, rfl, hlater⟩ := drain_frame_inv hdecode h
      rw [drain_frame (hd.frame_append more hdecode), ih hlater]
      rfl
  | hnone buffer rest' hdecode =>
      rw [drain_none hdecode] at h
      cases h
  | herror buffer e rest' hdecode =>
      rw [drain_error hdecode] at h
      cases h
      rw [drain_error (hd.error_append more hdecode)]

theorem drain_append {frames : List φ} (h : d.drain buffer = ⟨frames, none, rest⟩)
    (more : List α) : d.drain (buffer ++ more) = .prepend frames (d.drain (rest ++ more)) := by
  induction buffer using d.drain_induction generalizing frames with
  | hframe buffer frame rest' hdecode ih =>
      obtain ⟨later, rfl, hlater⟩ := drain_frame_inv hdecode h
      rw [drain_frame (hd.frame_append more hdecode), ih hlater]
      rfl
  | hnone buffer rest' hdecode =>
      rw [drain_none hdecode] at h
      cases h
      rw [hd.keeps_none hdecode]
      rfl
  | herror buffer e rest' hdecode =>
      rw [drain_error hdecode] at h
      cases h

theorem drain_stops {frames : List φ} (h : d.drain buffer = ⟨frames, none, rest⟩) :
    d.decode rest = (.ok none, rest) := by
  induction buffer using d.drain_induction generalizing frames with
  | hframe buffer frame rest' hdecode ih =>
      obtain ⟨later, -, hlater⟩ := drain_frame_inv hdecode h
      exact ih hlater
  | hnone buffer rest' hdecode =>
      rw [drain_none hdecode] at h
      cases h
      rw [← hd.keeps_none hdecode] at hdecode
      exact hdecode
  | herror buffer e rest' hdecode =>
      rw [drain_error hdecode] at h
      cases h

/-- However the bytes are cut, the driver comes to what draining them at once gives. -/
theorem feedAll_agree (hbuffer : d.decode buffer = (.ok none, buffer))
    (chunks : List (List α)) :
    Agree (d.feedAll buffer chunks) (d.drain (buffer ++ chunks.flatten)) := by
  induction chunks generalizing buffer with
  | nil =>
      rw [List.flatten_nil, List.append_nil, drain_none hbuffer]
      exact ⟨rfl, rfl, fun _ => rfl⟩
  | cons chunk later ih =>
      rw [feedAll, List.flatten_cons, ← List.append_assoc]
      rcases hdrain : d.drain (buffer ++ chunk) with ⟨frames, _ | e, rest⟩
      · rw [hd.drain_append hdrain]
        exact (ih (hd.drain_stops hdrain)).prepend frames
      · rw [hd.drain_append_error hdrain]
        exact ⟨rfl, rfl, fun hnone => by cases hnone⟩

theorem feedAll_agree_drain (chunks : List (List α)) :
    Agree (d.feedAll [] chunks) (d.drain chunks.flatten) :=
  hd.feedAll_agree hd.empty chunks

/-- The first frame of all the bytes is the first to be read. -/
theorem next_eq (truncated : ε) {chunks : List (List α)}
    (h : d.decode (buffer ++ chunks.flatten) = (.ok (some frame), rest)) :
    d.next truncated buffer chunks = some (.ok frame) := by
  induction chunks generalizing buffer with
  | nil =>
      rw [List.flatten_nil, List.append_nil] at h
      simp [next, h]
  | cons chunk later ih =>
      rcases hdecode : d.decode buffer with ⟨e | _ | first, left⟩
      · rw [hd.error_append _ hdecode] at h
        cases h
      · obtain rfl := hd.keeps_none hdecode
        rw [next, hdecode]
        refine ih ?_
        rwa [List.append_assoc, ← List.flatten_cons]
      · rw [hd.frame_append _ hdecode] at h
        cases h
        simp [next, hdecode]

end Incremental

/-! ## Inverse of an encoding -/

section Encoding

variable {encode : φ → List α}

/-- A frame that comes out is what its encoding at the front of the buffer stands for. -/
def Inverts (d : Decoder α φ ε) (encode : φ → List α) : Prop :=
  ∀ {buffer frame rest}, d.decode buffer = (.ok (some frame), rest) →
    buffer = encode frame ++ rest

theorem drain_conserves (hd : d.Incremental) (hinv : d.Inverts encode) (buffer : List α) :
    (d.drain buffer).frames.flatMap encode ++ (d.drain buffer).buffer = buffer := by
  induction buffer using d.drain_induction with
  | hframe buffer frame rest hdecode ih =>
      rw [drain_frame hdecode, Decoded.prepend_frames, Decoded.prepend_buffer,
        List.flatMap_append, List.append_assoc, ih, hinv hdecode]
      simp
  | hnone buffer rest hdecode =>
      rw [drain_none hdecode]
      exact hd.keeps_none hdecode
  | herror buffer e rest hdecode =>
      rw [drain_error hdecode]
      exact hd.keeps_error hdecode

/-- The chunks that were read; those after an error stay unread. -/
theorem feedAll_conserves (hd : d.Incremental) (hinv : d.Inverts encode)
    (buffer : List α) (chunks : List (List α)) :
    ∃ read unread, chunks = read ++ unread ∧
      (d.feedAll buffer chunks).frames.flatMap encode ++ (d.feedAll buffer chunks).buffer =
        buffer ++ read.flatten ∧
      ((d.feedAll buffer chunks).error = none → unread = []) := by
  induction chunks generalizing buffer with
  | nil => exact ⟨[], [], rfl, by simp [feedAll], fun _ => rfl⟩
  | cons chunk later ih =>
      have hconserves := drain_conserves hd hinv (buffer ++ chunk)
      rw [feedAll]
      rcases hdrain : d.drain (buffer ++ chunk) with ⟨frames, _ | e, rest⟩
      · rw [hdrain] at hconserves
        obtain ⟨read, unread, rfl, hread, hunread⟩ := ih rest
        refine ⟨chunk :: read, unread, rfl, ?_, hunread⟩
        rw [Decoded.prepend_frames, Decoded.prepend_buffer, List.flatMap_append,
          List.append_assoc, hread, List.flatten_cons, ← List.append_assoc, hconserves,
          List.append_assoc]
      · rw [hdrain] at hconserves
        refine ⟨[chunk], later, rfl, ?_, fun hnone => by cases hnone⟩
        rw [List.flatten_singleton]
        exact hconserves

theorem drain_encoded (hempty : d.decode [] = (.ok none, [])) {frames : List φ}
    (hdecode : ∀ frame ∈ frames, ∀ rest,
      d.decode (encode frame ++ rest) = (.ok (some frame), rest)) :
    d.drain (frames.flatMap encode) = ⟨frames, none, []⟩ := by
  induction frames with
  | nil => exact drain_none hempty
  | cons frame later ih =>
      rw [List.flatMap_cons, drain_frame (hdecode frame List.mem_cons_self _),
        ih fun other hother => hdecode other (List.mem_cons_of_mem frame hother)]
      rfl

theorem drain_frames {good : φ → Prop}
    (hgood : ∀ {buffer frame rest}, d.decode buffer = (.ok (some frame), rest) → good frame)
    (buffer : List α) : ∀ frame ∈ (d.drain buffer).frames, good frame := by
  induction buffer using d.drain_induction with
  | hframe buffer frame rest hdecode ih =>
      rw [drain_frame hdecode, Decoded.prepend_frames]
      intro other hother
      rcases List.mem_cons.mp hother with rfl | hlater
      · exact hgood hdecode
      · exact ih other hlater
  | hnone buffer rest hdecode => simp [drain_none hdecode]
  | herror buffer e rest hdecode => simp [drain_error hdecode]

end Encoding

end Decoder

end VasalAgent.Stream
