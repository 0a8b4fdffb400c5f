import Mathlib.Algebra.Group.Nat.Defs
import VasalAgent.Task.Shell

/-!
# Truncated output

`shell::truncate_output` cuts a long output at a byte and decodes what is left of it.  The
text it keeps is a prefix of the decoded output exactly when the cut does not fall inside a
character, other than the replacement character itself (`truncation_respects_iff`).
-/

namespace VasalAgent.Task.Shell

open VasalAgent.Async
open VasalAgent.Text

/-! ## Where the cut falls -/

/-- The character `c` of a text has bytes on both sides of the limit. -/
def CutsInside (text : String) (limit : Nat) (c : Char) : Prop :=
  ∃ head tail, text.toList = head ++ c :: tail ∧ (utf8 head).length < limit ∧
    limit < (utf8 (head ++ [c])).length

/-- Either the limit falls between two characters, or inside one. -/
theorem exists_cut {chars : List Char} {limit : Nat} (h : limit ≤ (utf8 chars).length) :
    (∃ head tail, chars = head ++ tail ∧ (utf8 head).length = limit) ∨
      ∃ head c tail kept, chars = head ++ c :: tail ∧
        kept + 1 < (String.utf8EncodeChar c).length ∧ limit = (utf8 head).length + (kept + 1) := by
  induction chars generalizing limit with
  | nil => exact .inl ⟨[], [], rfl, (Nat.le_zero.mp h).symm⟩
  | cons c chars ih =>
      rw [utf8_cons, List.length_append] at h
      rcases Nat.lt_or_ge limit (String.utf8EncodeChar c).length with hinside | hlater
      · cases limit with
        | zero => exact .inl ⟨[], c :: chars, rfl, rfl⟩
        | succ kept => exact .inr ⟨[], c, chars, kept, rfl, hinside, (Nat.zero_add _).symm⟩
      · have hrest : limit - (String.utf8EncodeChar c).length ≤ (utf8 chars).length := by omega
        rcases ih hrest with ⟨head, tail, rfl, hlength⟩ | ⟨head, d, tail, kept, rfl, hkept, hlength⟩
        · refine .inl ⟨c :: head, tail, rfl, ?_⟩
          rw [utf8_cons, List.length_append]
          omega
        · refine .inr ⟨c :: head, d, tail, kept, rfl, hkept, ?_⟩
          rw [utf8_cons, List.length_append]
          omega

theorem fromUtf8Lossy_take_boundary {head tail : List Char} :
    fromUtf8Lossy ((utf8 (head ++ tail)).take (utf8 head).length) = String.ofList head := by
  rw [utf8_append, List.take_left, fromUtf8Lossy_utf8]

theorem fromUtf8Lossy_take_inside {head tail : List Char} {c : Char} {limit : Nat}
    (hhead : (utf8 head).length < limit) (hchar : limit < (utf8 (head ++ [c])).length) :
    fromUtf8Lossy ((utf8 (head ++ c :: tail)).take limit) =
      String.ofList (head ++ [replacement]) := by
  obtain ⟨kept, rfl⟩ := Nat.exists_eq_add_of_lt hhead
  rw [utf8_append, List.length_append, utf8_cons, List.length_append] at hchar
  have hkept : kept + 1 < (String.utf8EncodeChar c).length := by
    have hnil : (utf8 []).length = 0 := rfl
    omega
  rw [utf8_append, utf8_cons, Nat.add_assoc, List.take_length_add_append,
    List.take_append_of_le_length (Nat.le_of_lt hkept), fromUtf8Lossy_cut head hkept]

/-! ## The output -/

/-- The line that `truncate_output` adds. -/
def marker (length : Nat) (spillPath : String) : String :=
  "\n... [truncated — full output (" ++ Nat.repr length ++ " bytes) at " ++ spillPath ++ "]"

theorem append_parts (kept a b c d e : String) :
    kept ++ a ++ b ++ c ++ d ++ e = kept ++ (a ++ b ++ c ++ d ++ e) := by
  simp only [String.append_assoc]

-- the law is used at variables: with the texts themselves the comparison unfolds them
theorem append_marker (kept : String) (length : Nat) (spillPath : String) :
    kept ++ "\n... [truncated — full output (" ++ Nat.repr length ++ " bytes) at " ++ spillPath ++
      "]" = kept ++ marker length spillPath :=
  append_parts ..

/-- What was captured is the UTF-8 of `text`. -/
structure Respects (origin : Origin) (stream : Stream) (text : String) : Prop where
  short : text.toUTF8.data.toList.length ≤ maxOutputSize →
    truncateOutput origin stream text.toUTF8.data.toList = pure text
  long : maxOutputSize < text.toUTF8.data.toList.length → ∀ events output,
    Prog.Steps (truncateOutput origin stream text.toUTF8.data.toList) events (.ret output) →
    ∃ spillPath kept, events = [⟨.spill origin stream text.toUTF8.data.toList, spillPath⟩] ∧
      kept.toList <+: text.toList ∧
      output = kept ++ marker text.toUTF8.data.toList.length spillPath

section Runs

variable {origin : Origin} {stream : Stream} {bytes : List UInt8}
  {events : List (Event ExecSig)} {output : String}

theorem truncateOutput_long (hlong : maxOutputSize < bytes.length) :
    truncateOutput origin stream bytes =
      Prog.call (S := ExecSig) (.spill origin stream bytes) fun spillPath =>
        .ret (fromUtf8Lossy (bytes.take maxOutputSize) ++ marker bytes.length spillPath) := by
  unfold truncateOutput
  simp only [if_neg (Nat.not_le.mpr hlong), append_marker]
  rfl

theorem truncateOutput_steps (hlong : maxOutputSize < bytes.length) :
    Prog.Steps (truncateOutput origin stream bytes) events (.ret output) ↔
      ∃ spillPath, events = [⟨.spill origin stream bytes, spillPath⟩] ∧
        output = fromUtf8Lossy (bytes.take maxOutputSize) ++ marker bytes.length spillPath := by
  rw [truncateOutput_long hlong]
  constructor
  · rintro (_ | ⟨⟨⟩⟩)
    exact ⟨_, rfl, rfl⟩
  · rintro ⟨spillPath, rfl, rfl⟩
    exact .call (.refl _)

end Runs

section Text

variable {origin : Origin} {stream : Stream} {text : String}

theorem respects_of_unsplit
    (h : ∀ c, CutsInside text maxOutputSize c → c = replacement) :
    Respects origin stream text := by
  refine ⟨fun hshort => ?_, fun hlong events output hsteps => ?_⟩
  · rw [truncateOutput, if_pos hshort, toUTF8_eq_utf8, fromUtf8Lossy_utf8, String.ofList_toList]
  · obtain ⟨spillPath, rfl, rfl⟩ := (truncateOutput_steps hlong).mp hsteps
    refine ⟨spillPath, _, rfl, ?_, rfl⟩
    rw [toUTF8_eq_utf8] at hlong ⊢
    rcases exists_cut (Nat.le_of_lt hlong) with ⟨head, tail, hchars, hlength⟩ |
      ⟨head, c, tail, kept, hchars, hkept, hlength⟩
    · rw [hchars, ← hlength, fromUtf8Lossy_take_boundary, String.toList_ofList]
      exact List.prefix_append head tail
    · have hhead : (utf8 head).length < maxOutputSize := by omega
      have hchar : maxOutputSize < (utf8 (head ++ [c])).length := by
        rw [utf8_append, List.length_append, utf8_cons, List.length_append]
        omega
      obtain rfl := h c ⟨head, tail, hchars, hhead, hchar⟩
      rw [hchars, fromUtf8Lossy_take_inside hhead hchar, String.toList_ofList]
      exact ⟨tail, by simp⟩

theorem eq_replacement_of_respects (h : Respects origin stream text) {c : Char}
    (hcut : CutsInside text maxOutputSize c) : c = replacement := by
  obtain ⟨head, tail, hchars, hhead, hchar⟩ := hcut
  have hlong : maxOutputSize < text.toUTF8.data.toList.length := by
    rw [toUTF8_eq_utf8, hchars, utf8_append, utf8_cons]
    rw [utf8_append, utf8_cons] at hchar
    simp only [List.length_append] at hchar ⊢
    have hnil : (utf8 []).length = 0 := rfl
    omega
  obtain ⟨spillPath, kept, hevents, hprefix, houtput⟩ := h.long hlong _ _
    ((truncateOutput_steps hlong).mpr ⟨"", rfl, rfl⟩)
  cases hevents
  have hkept := String.append_left_inj _ |>.mp houtput
  rw [toUTF8_eq_utf8, hchars, fromUtf8Lossy_take_inside hhead hchar] at hkept
  rw [← hkept, String.toList_ofList, hchars] at hprefix
  have hlast := (List.prefix_append_right_inj head).mp hprefix
  exact (List.cons_prefix_cons.mp hlast).1.symm

/-- The kept text is a prefix unless the limit splits a character. -/
theorem truncation_respects_iff (origin : Origin) (stream : Stream) (text : String) :
    Respects origin stream text ↔
      ∀ c, CutsInside text maxOutputSize c → c = replacement :=
  ⟨fun h _ => eq_replacement_of_respects h, respects_of_unsplit⟩

theorem length_utf8_replicate (count : Nat) (c : Char) :
    (utf8 (List.replicate count c)).length = count * c.utf8Size := by
  induction count with
  | zero => simp [utf8]
  | succ count ih =>
      rw [List.replicate_succ, utf8_cons, List.length_append, String.length_utf8EncodeChar, ih,
        Nat.succ_mul, Nat.add_comm]

/-- An output whose last letter, of two bytes, stands across the limit. -/
def straddling : String := String.ofList (List.replicate (maxOutputSize - 1) 'a' ++ ['é'])

theorem truncation_splits_character : ¬ Respects .exec .stdout straddling := by
  intro h
  have hletters : (utf8 (List.replicate (maxOutputSize - 1) 'a')).length = maxOutputSize - 1 := by
    rw [length_utf8_replicate]
    rfl
  have hlast : (utf8 ['é']).length = 2 := by decide
  have hcut : CutsInside straddling maxOutputSize 'é' := by
    refine ⟨_, [], String.toList_ofList, ?_, ?_⟩
    · rw [hletters]
      decide
    · rw [utf8_append, List.length_append, hletters, hlast]
      decide
  exact absurd (eq_replacement_of_respects h hcut) (by decide)

end Text

end VasalAgent.Task.Shell
