import CookTail.Backwards.Walk

/-! # Asking for no lines

`tail` calls `tail_backwards` only with a positive count (`check_positive`),
but the function takes any count. Asked for `0` lines it does not print
nothing: `line_buffer[-0:]` is the whole buffer. The walk stops at the first
window that holds a delimiter and prints every line after the first delimiter
it has read: nothing when the file ends with a delimiter, and the whole file
when it has none. What it prints otherwise depends on the chunk size.
-/

namespace CookTail

theorem mem_iff_tail_split_ne_nil (text : Text) :
    lineDelimiter ∈ text ↔ (split text).tail ≠ [] := by
  rw [← List.count_pos_iff, Ne, ← List.length_eq_zero, List.length_tail, length_split]
  omega

/-- What the walk asked for no lines prints when it stops with `rest` read:
every line after its first delimiter, nothing if it ends with one, or all of
`rest` when it holds none. -/
def zeroLinesOutput (rest : Text) : Text :=
  let lines := (split rest).tail
  if lines = [] then rest else if lines.getLast? = some [] then [] else join lines

theorem checkEnoughLinesRead_zero {partialLine rest : Text} {lineBuffer : List Text}
    (buffers : partialLine :: lineBuffer = split rest) :
    checkEnoughLinesRead lineBuffer 0 =
      if lineBuffer = [] then none else some [zeroLinesOutput rest] := by
  rw [zeroLinesOutput, ← buffers, List.tail_cons]
  unfold checkEnoughLinesRead
  rcases lineBuffer.eq_nil_or_concat with rfl | ⟨front, last, rfl⟩
  · simp
  · by_cases lastEmpty : last = [] <;> simp [lastEmpty, lastItems, printLines]

theorem getLast?_tail_split {text : Text} (hasLine : lineDelimiter ∈ text) :
    (split text).tail.getLast? = (split text).getLast? := by
  obtain ⟨first, lines, pieces⟩ := List.exists_cons_of_ne_nil (split_ne_nil text)
  have more := (mem_iff_tail_split_ne_nil text).mp hasLine
  rw [pieces, List.tail_cons] at more ⊢
  rw [List.getLast?_cons, List.getLast?_eq_getLast _ more]
  rfl

theorem zeroLinesOutput_of_not_mem {rest : Text} (noLine : lineDelimiter ∉ rest) :
    zeroLinesOutput rest = rest :=
  if_pos (not_not.mp (mt (mem_iff_tail_split_ne_nil rest).mpr noLine))

theorem zeroLinesOutput_of_mem {rest : Text} (hasLine : lineDelimiter ∈ rest) :
    zeroLinesOutput rest =
      if rest.getLast? = some lineDelimiter then [] else join (split rest).tail := by
  have ends := getLast?_split_eq_nil_iff rest
  rw [← getLast?_tail_split hasLine, or_iff_right (List.ne_nil_of_mem hasLine)] at ends
  rw [zeroLinesOutput, if_neg ((mem_iff_tail_split_ne_nil rest).mp hasLine)]
  exact if_congr ends rfl rfl

/-- Asked for no lines, the walk stops at its `k`-th read (counting from one)
when that window reaches the start of the file, or the last `min(k * chunk, S)`
characters hold a delimiter. -/
def StopsAtZero (chunk : ChunkSize) (file : Text) (k : Nat) : Prop :=
  file.length ≤ k * chunk.size ∨ lineDelimiter ∈ file.drop (file.length - k * chunk.size)

namespace AtIteration

variable {chunk : ChunkSize} {file : Text} {j : Nat} {state : BackwardsState}

theorem step_zero (at_ : AtIteration chunk file j state) :
    (∃ printed,
        loopBody chunk 0 state (readData file state.offset state.length) = .stop printed ∧
        StopsAtZero chunk file (j + 1) ∧
        printed.flatten = zeroLinesOutput (file.drop (windowOffset chunk file.length (j + 1)))) ∨
    (∃ next,
        loopBody chunk 0 state (readData file state.offset state.length) = .next next ∧
        ¬StopsAtZero chunk file (j + 1) ∧ AtIteration chunk file (j + 1) next) := by
  have pieces := at_.pieces_after
  have offset := at_.offset_eq
  rw [windowOffset] at offset
  have lines := mem_iff_tail_split_ne_nil (file.drop (windowOffset chunk file.length (j + 1)))
  rw [← pieces, List.tail_cons] at lines
  rcases loopBody_cases chunk 0 state (readData file state.offset state.length) with
    ⟨printed, enough, stops⟩ | ⟨notEnough, start, printed, starts, stops⟩ |
      ⟨notEnough, notStart, moves⟩
  · rw [checkEnoughLinesRead_zero pieces] at enough
    split_ifs at enough with noLine
    cases enough
    exact .inl ⟨_, stops, .inr (lines.mpr noLine), List.flatten_singleton _⟩
  · rw [checkEnoughLinesRead_zero pieces] at notEnough
    split_ifs at notEnough with noLine
    refine .inl ⟨printed, stops, .inl (by omega), ?_⟩
    rw [flatten_checkStartOfFile starts, zeroLinesOutput, ← pieces, List.tail_cons,
      if_pos noLine, pieces, join_split]
  · rw [checkEnoughLinesRead_zero pieces] at notEnough
    split_ifs at notEnough with noLine
    refine .inr ⟨_, moves, ?_, at_.next moves⟩
    rintro (reached | hasLine)
    · omega
    · exact absurd noLine (lines.mp hasLine)

end AtIteration

/-- Asked for `0` lines under faithful reads, `tail_backwards` returns after
reading back to the first window that holds a delimiter, or to the start of the
file. It prints nothing only when the file ends with the delimiter; it prints
the whole file when the file holds none; and otherwise it prints every line
after the first delimiter of the text it has read. -/
theorem tailBackwards_zero_lines (chunk : ChunkSize) (file : Text) {readFn : Reader ε}
    (faithful : AnsweredFaithfully readFn (tailBackwards chunk file.length readFn 0) file) :
    let run := tailBackwards chunk file.length readFn 0
    let rest := file.drop (windowOffset chunk file.length run.reads.length)
    run.outcome = .ok () ∧
      (file.getLast? = some lineDelimiter → run.output = []) ∧
      (lineDelimiter ∉ file → run.output = file) ∧
      (lineDelimiter ∈ file → file.getLast? ≠ some lineDelimiter →
        run.output = join (split rest).tail ∧ lineDelimiter ∈ rest ∧
        ∀ k < run.reads.length, lineDelimiter ∉ file.drop (windowOffset chunk file.length k)) := by
  obtain ⟨count, reads, stops, before, outcome, output⟩ :=
    tailBackwardsLoop_faithfulRun (StopsAtZero chunk file)
      (fun k => zeroLinesOutput (file.drop (windowOffset chunk file.length k)))
      (fun at_ => at_.step_zero) faithful (AtIteration.initial chunk file)
  simp only [Nat.zero_add] at stops before output
  have lengthEq : (tailBackwards chunk file.length readFn 0).reads.length = count + 1 := by
    simp [tailBackwards, reads]
  simp only [lengthEq]
  rw [show (tailBackwards chunk file.length readFn 0).output = _ from output]
  generalize restEq : file.drop (windowOffset chunk file.length (count + 1)) = rest
  have stopped : rest = file ∨ lineDelimiter ∈ rest := by
    rcases stops with start | found
    · exact .inl (by rw [← restEq, windowOffset, Nat.sub_eq_zero_of_le start, List.drop_zero])
    · exact .inr (restEq ▸ found)
  have reached (hasLine : lineDelimiter ∈ file) : lineDelimiter ∈ rest :=
    stopped.elim (fun whole => whole ▸ hasLine) id
  have endsLike (hasLine : lineDelimiter ∈ rest) : rest.getLast? = file.getLast? := by
    rw [← List.take_append_drop (windowOffset chunk file.length (count + 1)) file, restEq,
      List.getLast?_append_of_ne_nil _ (List.ne_nil_of_mem hasLine)]
  refine ⟨outcome, fun endsWith => ?_, fun noLine => ?_, fun hasLine notEnds => ?_⟩
  · have inRest := reached (List.mem_of_getLast?_eq_some endsWith)
    rw [zeroLinesOutput_of_mem inRest, if_pos ((endsLike inRest).trans endsWith)]
  · have noLineRest : lineDelimiter ∉ rest := fun inRest =>
      noLine (List.mem_of_mem_drop (restEq ▸ inRest))
    rw [zeroLinesOutput_of_not_mem noLineRest]
    exact stopped.resolve_right noLineRest
  · have inRest := reached hasLine
    refine ⟨by rw [zeroLinesOutput_of_mem inRest, if_neg (endsLike inRest ▸ notEnds)], inRest,
      fun k below => ?_⟩
    cases k with
    | zero => simp [windowOffset]
    | succ i => exact (not_or.mp (before i (by omega))).2

/-- The three-line file asked for no lines: with a one-character chunk the walk
stops at the window that reads the last delimiter and prints "c"; the default
chunk reads the file whole and prints "b\nc". -/
theorem tailBackwards_zero_lines_of_two_chunks :
    (tailBackwards ⟨1, Nat.one_pos⟩ "a\nb\nc".toList.length
        (staticFile (ε := String) "a\nb\nc".toList) 0).output = "c".toList ∧
      (tailBackwards chunkSize "a\nb\nc".toList.length
        (staticFile (ε := String) "a\nb\nc".toList) 0).output = "b\nc".toList := by
  obtain ⟨-, -, -, small⟩ := tailBackwards_zero_lines ⟨1, Nat.one_pos⟩ "a\nb\nc".toList
    ((staticFile_readsFaithfully _).answered _)
  obtain ⟨-, -, -, large⟩ := tailBackwards_zero_lines chunkSize "a\nb\nc".toList
    ((staticFile_readsFaithfully _).answered _)
  obtain ⟨output, found, before⟩ := small (by decide) (by decide)
  obtain ⟨output', found', before'⟩ := large (by decide) (by decide)
  refine ⟨output.trans ?_, output'.trans ?_⟩
  · generalize (tailBackwards ⟨1, Nat.one_pos⟩ "a\nb\nc".toList.length
      (staticFile (ε := String) "a\nb\nc".toList) 0).reads.length = reads at found before ⊢
    rcases reads with _ | _ | _ | reads
    · exact absurd found (by decide)
    · exact absurd found (by decide)
    · decide
    · exact (before 2 (by omega) (by decide)).elim
  · generalize (tailBackwards chunkSize "a\nb\nc".toList.length
      (staticFile (ε := String) "a\nb\nc".toList) 0).reads.length = reads at found' before' ⊢
    rcases reads with _ | _ | reads
    · exact absurd found' (by decide)
    · decide
    · exact (before' 1 (by omega) (by decide)).elim

end CookTail
