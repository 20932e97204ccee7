import Rfrp.Lib.Framing
import Rfrp.Lib.MessagePack
import Rfrp.Proto.TunnelEnd
import Rfrp.Server.ByteStream

/-!
# Length-delimited frames

`LengthDelimitedCodec` as `make_length_delimited_codec` builds it keeps the laws of a framing.
-/

namespace Rfrp

namespace ServerIo

/-- Four bytes of length and the payload. -/
def delimit (p : Bytes) : Bytes := beBytes 4 p.length ++ p

theorem length_delimit (p : Bytes) : (delimit p).length = 4 + p.length := by
  rw [delimit, List.length_append, length_beBytes]

theorem take_delimit (p : Bytes) : (delimit p).take 4 = beBytes 4 p.length :=
  List.take_left' (length_beBytes 4 _)

theorem drop_delimit (p : Bytes) : (delimit p).drop 4 = p :=
  List.drop_left' (length_beBytes 4 _)

theorem decode_delimit {p : Bytes} (small : p.length ≤ maxFrameLen) (rest : Bytes) :
    lengthDelimited.decode () (delimit p ++ rest) = ((), rest, .ok (some p)) := by
  have four : 4 ≤ (delimit p).length := by rw [length_delimit]; exact Nat.le_add_right _ _
  have head : (delimit p ++ rest).take 4 = beBytes 4 p.length := by
    rw [List.take_append_of_le_length four, take_delimit]
  have value : Msgpack.ofBeBytes (beBytes 4 p.length) = p.length :=
    Msgpack.ofBeBytes_beBytes (Nat.lt_of_le_of_lt small (by decide))
  have size : (delimit p ++ rest).length = 4 + p.length + rest.length := by
    rw [List.length_append, length_delimit]
  have payload : ((delimit p ++ rest).drop 4).take p.length = p := by
    rw [List.drop_append_of_le_length four, drop_delimit, List.take_left]
  have after : (delimit p ++ rest).drop (4 + p.length) = rest := by
    rw [← length_delimit, List.drop_left]
  unfold Msgpack.ofBeBytes at value
  unfold maxFrameLen at small
  simp only [lengthDelimited, head, value, payload, after]
  rw [if_neg (by omega), if_neg (by omega), if_neg (by omega)]

theorem decode_part {p w : Bytes} (small : p.length ≤ maxFrameLen) (part : w <+: delimit p)
    (short : w ≠ delimit p) : lengthDelimited.decode () w = ((), w, .ok none) := by
  have less : w.length < 4 + p.length := by
    rw [← length_delimit]
    apply Nat.lt_of_le_of_ne part.length_le
    exact fun same => short (List.IsPrefix.eq_of_length part same)
  unfold maxFrameLen at small
  simp only [lengthDelimited]
  by_cases four : w.length < 4
  · rw [if_pos four]
  · have head : w.take 4 = beBytes 4 p.length := by
      rw [← take_delimit]
      obtain ⟨later, whole⟩ := part
      rw [← whole, List.take_append_of_le_length (by omega)]
    have value : Msgpack.ofBeBytes (beBytes 4 p.length) = p.length :=
      Msgpack.ofBeBytes_beBytes (Nat.lt_of_le_of_lt small (by decide))
    unfold Msgpack.ofBeBytes at value
    rw [if_neg four, head, value, if_neg (by omega), if_pos less]

theorem lengthDelimited_framing : Framing lengthDelimited.decode lengthDelimited.decodeEof delimit
    (fun p => p.length ≤ maxFrameLen) () fun _ buf w => buf = w where
  fresh := rfl
  frame_ne_nil p := List.ne_nil_of_length_pos (by rw [length_delimit]; omega)
  more s buf w piece same := same ▸ rfl
  whole s buf p rest small same := ⟨(), rest, same ▸ decode_delimit small rest, rfl⟩
  part s buf p w small same part short := by
    subst same
    exact ⟨(), buf, decode_part small part short, rfl⟩
  eofWhole s buf p rest small same := by
    refine ⟨(), rest, ?_, rfl⟩
    subst same
    have whole := decode_delimit small rest
    simp only [lengthDelimited] at whole ⊢
    rw [whole]
  eofPart s buf p w small same part short := by
    subst same
    have unfinished := decode_part small part short
    simp only [lengthDelimited] at unfinished ⊢
    rw [unfinished]
    by_cases empty : buf = []
    · exact ⟨(), buf, .ok none, by simp only [if_pos empty], rfl, fun q eq => by cases eq⟩
    · refine ⟨(), buf, .error "bytes remaining on stream", ?_, rfl, fun q eq => by cases eq⟩
      simp only [if_neg empty]

end ServerIo

end Rfrp
