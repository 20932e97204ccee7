import Mathlib.Data.List.Infix

/-!
# Frames on a stream

A decoder that is given a stream piece by piece and cuts the frames off it. How the stream falls
into pieces is not its choice, so what it answers may depend only on the stream.
-/

namespace Rfrp

variable {S α ε : Type*}

/-- `frame p` is payload `p` as it stands on the stream. `pending s buf w` says that a decoder in
state `s` with `buf` buffered has read `w` since the last frame it answered with. -/
structure Framing (decode decodeEof : S → List α → S × List α × Except ε (Option (List α)))
    (frame : List α → List α) (fits : List α → Prop) (fresh : S)
    (pending : S → List α → List α → Prop) : Prop where
  fresh : pending fresh [] []
  frame_ne_nil : ∀ p, frame p ≠ []
  more : ∀ s buf w piece, pending s buf w → pending s (buf ++ piece) (w ++ piece)
  whole : ∀ s buf p rest, fits p → pending s buf (frame p ++ rest) →
    ∃ s' buf', decode s buf = (s', buf', .ok (some p)) ∧ pending s' buf' rest
  part : ∀ s buf p w, fits p → pending s buf w → w <+: frame p → w ≠ frame p →
    ∃ s' buf', decode s buf = (s', buf', .ok none) ∧ pending s' buf' w
  eofWhole : ∀ s buf p rest, fits p → pending s buf (frame p ++ rest) →
    ∃ s' buf', decodeEof s buf = (s', buf', .ok (some p)) ∧ pending s' buf' rest
  eofPart : ∀ s buf p w, fits p → pending s buf w → w <+: frame p → w ≠ frame p →
    ∃ s' buf' answer, decodeEof s buf = (s', buf', answer) ∧ pending s' buf' w ∧
      ∀ q, answer ≠ .ok (some q)

/-- A frame that was not written to its end. -/
def Torn (frame : List α → List α) (fits : List α → Prop) (tail : List α) : Prop :=
  ∃ p, fits p ∧ tail <+: frame p ∧ tail ≠ frame p

namespace Framing

variable {decode decodeEof : S → List α → S × List α × Except ε (Option (List α))}
  {frame : List α → List α} {fits : List α → Prop} {fresh : S} {pending : S → List α → List α → Prop}
  {s : S} {buf w later tail : List α} {payloads : List (List α)}

theorem torn_nil (framing : Framing decode decodeEof frame fits fresh pending) {p : List α}
    (small : fits p) : Torn frame fits [] :=
  ⟨p, small, List.nil_prefix, fun eq => framing.frame_ne_nil p eq.symm⟩

theorem torn_of_isPrefix {tail' : List α} (torn : Torn frame fits tail) (pre : tail' <+: tail) :
    Torn frame fits tail' := by
  obtain ⟨p, small, part, short⟩ := torn
  refine ⟨p, small, pre.trans part, ?_⟩
  rintro rfl
  exact short (List.IsPrefix.eq_of_length_le part pre.length_le)

/-- Where the stream reads as frames and a torn one, a decoder that has read a part of it has the
first frame whole or none. -/
theorem split (read : w ++ later = (payloads.map frame).flatten ++ tail)
    (small : ∀ p ∈ payloads, fits p) (torn : Torn frame fits tail) :
    (∃ p ps rest, payloads = p :: ps ∧ w = frame p ++ rest ∧
      rest ++ later = (ps.map frame).flatten ++ tail) ∨ Torn frame fits w := by
  cases payloads with
  | nil => exact Or.inr (torn_of_isPrefix torn ⟨later, read⟩)
  | cons p ps =>
      rw [List.map_cons, List.flatten_cons, List.append_assoc] at read
      rcases List.append_eq_append_iff.mp read with ⟨lack, first, rest⟩ | ⟨rest, first, whole⟩
      · by_cases complete : lack = []
        · subst complete
          rw [List.append_nil] at first
          exact Or.inl ⟨p, ps, [], rfl, by rw [first, List.append_nil], by simpa using rest⟩
        · refine Or.inr ⟨p, small p List.mem_cons_self, ⟨lack, first.symm⟩, ?_⟩
          rintro rfl
          exact complete (List.self_eq_append_right.mp first)
      · exact Or.inl ⟨p, ps, rest, rfl, first, whole.symm⟩

theorem answer (framing : Framing decode decodeEof frame fits fresh pending)
    (waits : pending s buf w) (read : w ++ later = (payloads.map frame).flatten ++ tail)
    (small : ∀ p ∈ payloads, fits p) (torn : Torn frame fits tail) :
    (∃ p ps s' buf' rest, payloads = p :: ps ∧ decode s buf = (s', buf', .ok (some p)) ∧
      pending s' buf' rest ∧ rest ++ later = (ps.map frame).flatten ++ tail) ∨
    (∃ s' buf', decode s buf = (s', buf', .ok none) ∧ pending s' buf' w ∧ Torn frame fits w) := by
  rcases split read small torn with ⟨p, ps, rest, rfl, rfl, stream⟩ | torn
  · obtain ⟨s', buf', answered, waits⟩ := framing.whole s buf p rest (small p List.mem_cons_self) waits
    exact Or.inl ⟨p, ps, s', buf', rest, rfl, answered, waits, stream⟩
  · obtain ⟨q, fit, part, short⟩ := torn
    obtain ⟨s', buf', answered, waits⟩ := framing.part s buf q w fit waits part short
    exact Or.inr ⟨s', buf', answered, waits, q, fit, part, short⟩

theorem answerEof (framing : Framing decode decodeEof frame fits fresh pending)
    (waits : pending s buf w) (read : w = (payloads.map frame).flatten ++ tail)
    (small : ∀ p ∈ payloads, fits p) (torn : Torn frame fits tail) :
    (∃ p ps s' buf' rest, payloads = p :: ps ∧ decodeEof s buf = (s', buf', .ok (some p)) ∧
      pending s' buf' rest ∧ rest = (ps.map frame).flatten ++ tail) ∨
    (∃ s' buf' result, decodeEof s buf = (s', buf', result) ∧ pending s' buf' w ∧
      (∀ q, result ≠ .ok (some q)) ∧ payloads = []) := by
  cases payloads with
  | nil =>
      obtain ⟨q, fit, part, short⟩ := torn
      rw [List.map_nil, List.flatten_nil, List.nil_append] at read
      subst read
      obtain ⟨s', buf', result, answered, waits, none⟩ := framing.eofPart s buf q w fit waits part short
      exact Or.inr ⟨s', buf', result, answered, waits, none, rfl⟩
  | cons p ps =>
      rw [List.map_cons, List.flatten_cons, List.append_assoc] at read
      subst read
      obtain ⟨s', buf', answered, waits⟩ :=
        framing.eofWhole s buf p _ (small p List.mem_cons_self) waits
      exact Or.inl ⟨p, ps, s', buf', _, rfl, answered, waits, rfl⟩

end Framing

end Rfrp
