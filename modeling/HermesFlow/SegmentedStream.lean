import Mathlib.Data.List.Basic
import Mathlib.Data.List.Infix

/-!
# Reading frames from a segmented stream

A reader holds the symbols it has received and not used. It asks a parser for
the next frame and receives one more segment whenever the parser needs more. If
the parser takes exactly the symbols of a frame, the segmentation does not
matter: the reader gives the frame and keeps what follows.
-/

namespace HermesFlow.SegmentedStream

variable {σ α : Type*}

/-- What a parser makes of the symbols received so far. -/
inductive Parsed (α : Type*) where
  /-- They are only the start of a frame. -/
  | needMore
  | error (message : String)
  /-- A frame, and the number of symbols it takes. -/
  | done (frame : α) (consumed : ℕ)
  deriving DecidableEq

/-- A frame, the symbols left, and the segments that have not been received. -/
abbrev Read (σ α : Type*) := α × List σ × List (List σ)

/-- Read a frame; `eof` is the error when the stream ends before. -/
def readFrame (parse : List σ → Parsed α) (eof : List σ → String) (buffer : List σ) :
    List (List σ) → Except String (Read σ α)
  | [] =>
    match parse buffer with
    | .done frame consumed => .ok (frame, buffer.drop consumed, [])
    | .error message => .error message
    | .needMore => .error (eof buffer)
  | segment :: incoming =>
    match parse buffer with
    | .done frame consumed => .ok (frame, buffer.drop consumed, segment :: incoming)
    | .error message => .error message
    | .needMore => readFrame parse eof (buffer ++ segment) incoming

/-- The parser takes exactly these symbols for this frame. -/
structure Frames (parse : List σ → Parsed α) (symbols : List σ) (frame : α) : Prop where
  /-- The whole frame is taken, whatever follows. -/
  complete : ∀ rest, parse (symbols ++ rest) = .done frame symbols.length
  /-- A part of it is not enough. -/
  partly : ∀ start, start <+: symbols → start ≠ symbols → parse start = .needMore

variable {parse : List σ → Parsed α} {eof : List σ → String} {symbols : List σ} {frame : α}

/-- A frame that is there is read, whatever the segments. -/
theorem Frames.readFrame (h : Frames parse symbols frame) {buffer later : List σ}
    {incoming : List (List σ)} (hstream : buffer ++ incoming.flatten = symbols ++ later) :
    ∃ buffer' incoming',
      SegmentedStream.readFrame parse eof buffer incoming = .ok (frame, buffer', incoming') ∧
        buffer' ++ incoming'.flatten = later := by
  have hdone : ∀ rest : List σ, buffer = symbols ++ rest →
      parse buffer = .done frame symbols.length ∧ buffer.drop symbols.length = rest := by
    rintro rest rfl
    exact ⟨h.complete rest, List.drop_left⟩
  induction incoming generalizing buffer with
  | nil =>
    rw [List.flatten_nil, List.append_nil] at hstream
    obtain ⟨hparse, hdrop⟩ := hdone later hstream
    refine ⟨later, [], ?_, by rw [List.flatten_nil, List.append_nil]⟩
    rw [SegmentedStream.readFrame, hparse]
    dsimp only
    rw [hdrop]
  | cons segment incoming ih =>
    by_cases hall : symbols <+: buffer
    · obtain ⟨rest, hrest⟩ := hall
      obtain ⟨hparse, hdrop⟩ := hdone rest hrest.symm
      refine ⟨rest, segment :: incoming, ?_, ?_⟩
      · rw [SegmentedStream.readFrame, hparse]
        dsimp only
        rw [hdrop]
      · rw [← hrest, List.append_assoc] at hstream
        exact List.append_cancel_left hstream
    · -- what has been received is a part of the frame
      have hpart : buffer <+: symbols := by
        have hbuffer : buffer <+: symbols ++ later := by
          rw [← hstream]
          exact List.prefix_append _ _
        exact (List.prefix_or_prefix_of_prefix hbuffer (List.prefix_append symbols later)).resolve_right
          hall
      have hneeds : parse buffer = .needMore :=
        h.partly buffer hpart fun hsame => hall (hsame ▸ List.prefix_rfl)
      rw [SegmentedStream.readFrame, hneeds]
      refine ih ?_ ?_
      · rw [List.append_assoc, ← List.flatten_cons]
        exact hstream
      · rintro rest hrest
        rw [hrest]
        exact ⟨h.complete rest, List.drop_left⟩

/-- A stream that is over has no frame. -/
theorem readFrame_nil (hempty : parse [] = .needMore) {incoming : List (List σ)}
    (hstream : incoming.flatten = []) : readFrame parse eof [] incoming = .error (eof []) := by
  induction incoming with
  | nil => rw [readFrame, hempty]
  | cons segment incoming ih =>
    rw [List.flatten_cons] at hstream
    obtain ⟨rfl, hrest⟩ := List.append_eq_nil_iff.mp hstream
    rw [readFrame, hempty]
    exact ih hrest

section Table

variable [DecidableEq σ]

/-- The parser of the frames of a list. -/
def oneOf (frames : List (List σ × α)) (received : List σ) : Parsed α :=
  match frames.find? fun f => f.1.isPrefixOf received with
  | some f => .done f.2 f.1.length
  | none =>
    if frames.any fun f => received.isPrefixOf f.1 then .needMore else .error "unexpected symbol"

/-- No frame begins with another. -/
def PrefixFree (frames : List (List σ × α)) : Prop :=
  ∀ f ∈ frames, ∀ g ∈ frames, f.1 <+: g.1 → f = g

instance [DecidableEq α] (frames : List (List σ × α)) : Decidable (PrefixFree frames) :=
  inferInstanceAs (Decidable (∀ f ∈ frames, ∀ g ∈ frames, f.1 <+: g.1 → f = g))

/-- Then the parser takes each of them exactly. -/
theorem oneOf_frames {frames : List (List σ × α)} (hfree : PrefixFree frames)
    (hmem : (symbols, frame) ∈ frames) : Frames (oneOf frames) symbols frame := by
  constructor
  · intro rest
    -- a frame that the symbols begin with is the frame looked for
    have hfound : frames.find? (fun f => f.1.isPrefixOf (symbols ++ rest)) =
        some (symbols, frame) := by
      cases hfind : frames.find? fun f => f.1.isPrefixOf (symbols ++ rest) with
      | none =>
        have hnot := List.find?_eq_none.mp hfind _ hmem
        exact absurd (List.isPrefixOf_iff_prefix.mpr (List.prefix_append symbols rest)) hnot
      | some f =>
        have hf := List.mem_of_find?_eq_some hfind
        have htrue := @List.find?_some _ (fun f => f.1.isPrefixOf (symbols ++ rest)) _ frames hfind
        have hprefix : f.1 <+: symbols ++ rest := List.isPrefixOf_iff_prefix.mp htrue
        rcases List.prefix_or_prefix_of_prefix hprefix (List.prefix_append symbols rest) with
          hshort | hlong
        · rw [hfree f hf _ hmem hshort]
        · rw [hfree _ hmem f hf hlong]
    rw [oneOf, hfound]
  · intro start hstart hpart
    have hnone : frames.find? (fun f => f.1.isPrefixOf start) = none := by
      refine List.find?_eq_none.mpr fun f hf hprefix => ?_
      have hshort : f.1 <+: start := List.isPrefixOf_iff_prefix.mp hprefix
      have hsame := hfree f hf _ hmem (hshort.trans hstart)
      rw [hsame] at hshort
      exact hpart (hstart.eq_of_length_le hshort.length_le)
    have hany : frames.any (fun f => start.isPrefixOf f.1) = true :=
      List.any_eq_true.mpr ⟨_, hmem, List.isPrefixOf_iff_prefix.mpr hstart⟩
    rw [oneOf, hnone]
    dsimp only
    rw [if_pos hany]

end Table

end HermesFlow.SegmentedStream
