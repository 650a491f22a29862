import CookTail.Backwards.Walk

/-! # The buffers of `tail_backwards`

The loop invariant: after every read, the partial line and the line buffer are
the pieces of everything read so far, so no entry holds the delimiter and the
line buffer is the file's last lines.
-/

namespace CookTail

/-- The states at the top of the loop of `tail_backwards` when every read is
faithful: the state before the first pass, and each state a pass that does not
break moves to. -/
inductive Reaches (chunk : ChunkSize) (file : Text) (numLinesToPrint : Nat) :
    BackwardsState → Prop
  | initial : Reaches chunk file numLinesToPrint (BackwardsState.initial chunk file.length)
  | next {state next : BackwardsState} : Reaches chunk file numLinesToPrint state →
      loopBody chunk numLinesToPrint state (readData file state.offset state.length) =
        .next next →
      Reaches chunk file numLinesToPrint next

theorem Reaches.atIteration {chunk : ChunkSize} {file : Text} {numLinesToPrint : Nat}
    {state : BackwardsState} (reached : Reaches chunk file numLinesToPrint state) :
    ∃ j, AtIteration chunk file j state := by
  induction reached with
  | initial => exact ⟨0, AtIteration.initial chunk file⟩
  | next _ continues induction =>
      obtain ⟨j, at_⟩ := induction
      exact ⟨j + 1, at_.next continues⟩

/-- After the read of every pass, the partial line holds no delimiter, nor does
any buffered line; the two joined back are everything from the offset read on;
and the buffered lines are the last pieces of the file, as many as the
delimiters read, with the partial line at the end of the piece before them. -/
theorem buffers_after_update {chunk : ChunkSize} {file : Text} {numLinesToPrint : Nat}
    {state : BackwardsState} (reached : Reaches chunk file numLinesToPrint state) :
    let buffers := updateBuffers (readData file state.offset state.length)
      state.partialLineBuffer state.lineBuffer
    lineDelimiter ∉ buffers.1 ∧ (∀ line ∈ buffers.2, lineDelimiter ∉ line) ∧
    buffers.1 ++ (buffers.2.map (lineDelimiter :: ·)).flatten = file.drop state.offset ∧
    buffers.2.length = (file.drop state.offset).count lineDelimiter ∧
    ∃ front piece, split file = front ++ piece :: buffers.2 ∧ buffers.1 <:+ piece := by
  obtain ⟨j, at_⟩ := reached.atIteration
  have pieces := at_.pieces_after
  rw [← at_.offset_eq] at pieces
  intro buffers
  have free (line : Text) (member : line ∈ buffers.1 :: buffers.2) : lineDelimiter ∉ line :=
    not_mem_of_mem_split (pieces ▸ member)
  refine ⟨free _ (List.mem_cons_self _ _), fun line member => free line
    (List.mem_cons_of_mem _ member), ?_, (count_drop_eq_length pieces.symm).symm, ?_⟩
  · rw [← join_cons, pieces, join_split]
  · obtain ⟨front, piece, last⟩ : ∃ front piece,
        split (file.take state.offset ++ buffers.1) = front ++ [piece] :=
      ⟨_, _, (List.dropLast_append_getLast (split_ne_nil _)).symm⟩
    have ends := isSuffix_join_drop_split (file.take state.offset)
      (free _ (List.mem_cons_self _ _)) front.length
      (by simp [last])
    rw [last, List.drop_left, join_singleton] at ends
    exact ⟨front, piece, by rw [split_eq_of_drop pieces.symm, last]; simp, ends⟩

/-- The state before the third read of a one-character walk over "a\nb\nc". -/
theorem buffers_after_update_of_third_pass :
    let file := "a\nb\nc".toList
    let state : BackwardsState := ⟨2, 1, [], ["c".toList]⟩
    let buffers := updateBuffers (readData file state.offset state.length)
      state.partialLineBuffer state.lineBuffer
    buffers.1 ++ (buffers.2.map (lineDelimiter :: ·)).flatten = file.drop state.offset :=
  (buffers_after_update (Reaches.next (Reaches.next
    (@Reaches.initial ⟨1, Nat.one_pos⟩ "a\nb\nc".toList 2) rfl) rfl)).2.2.1

end CookTail
