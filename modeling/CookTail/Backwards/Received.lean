import CookTail.Backwards.Walk

/-! # What the walk prints of what it received

Nothing here assumes the agent answers from a file. Whatever its reads return,
the buffers of `tail_backwards` are the pieces of the text received so far, the
last read first; so what it prints is whole last lines of that text, never more
of them than asked for.
-/

namespace CookTail

theorem linesWanted_le (lines : List Text) (numLinesToPrint : Nat) :
    linesWanted lines numLinesToPrint ≤ numLinesToPrint + 1 := by
  unfold linesWanted
  split_ifs <;> omega

theorem join_eq_of_drop (lines : List Text) (count : Nat) (positive : 0 < count)
    (inside : count < lines.length) :
    join lines = join (lines.take count) ++ lineDelimiter :: join (lines.drop count) := by
  obtain ⟨line, rest, back⟩ := List.exists_cons_of_ne_nil
    (show lines.drop count ≠ [] by rw [Ne, List.drop_eq_nil_iff]; omega)
  have front : lines.take count ≠ [] := by
    rw [Ne, List.take_eq_nil_iff, not_or]
    exact ⟨by omega, List.ne_nil_of_length_pos (by omega)⟩
  rw [back, ← join_append_cons _ front, ← back, List.take_append_drop]

section Checks

variable {numLines : Nat} {partialLine text : Text} {lineBuffer printed : List Text}
  (buffers : partialLine :: lineBuffer = split text)
include buffers

theorem checkEnoughLinesRead_received (positive : 0 < numLines)
    (enough : checkEnoughLinesRead lineBuffer numLines = some printed) :
    lineDelimiter :: printed.flatten <:+ text ∧
      printed.flatten.count lineDelimiter ≤ numLines := by
  rw [checkEnoughLinesRead_eq _ positive] at enough
  split_ifs at enough with fits
  cases enough
  have atLeast := le_linesWanted lineBuffer numLines
  have atMost := linesWanted_le lineBuffer numLines
  have count := count_join
    (fun line member => not_mem_of_mem_split
      (buffers ▸ List.mem_cons_of_mem _ (List.mem_of_mem_drop member)))
    (show lineBuffer.drop (lineBuffer.length - linesWanted lineBuffer numLines) ≠ [] by
      rw [Ne, List.drop_eq_nil_iff]
      omega)
  rw [List.length_drop] at count
  have joined := join_eq_of_drop (partialLine :: lineBuffer)
    (lineBuffer.length - linesWanted lineBuffer numLines + 1) (by omega)
    (by simp only [List.length_cons]; omega)
  rw [List.drop_succ_cons, buffers, join_split] at joined
  rw [List.flatten_singleton]
  exact ⟨⟨_, joined.symm⟩, by omega⟩

theorem checkStartOfFile_received (positive : 0 < numLines)
    (notEnough : checkEnoughLinesRead lineBuffer numLines = none)
    (starts : checkStartOfFile 0 partialLine lineBuffer = some printed) :
    printed.flatten = text ∧ printed.flatten.count lineDelimiter ≤ numLines := by
  rw [checkEnoughLinesRead_eq_none_iff _ positive] at notEnough
  have atMost := linesWanted_le lineBuffer numLines
  have whole : join (partialLine :: lineBuffer) = text := by rw [buffers, join_split]
  have count := count_join (fun line member => not_mem_of_mem_split (buffers ▸ member))
    (List.cons_ne_nil partialLine lineBuffer)
  rw [List.length_cons] at count
  rw [flatten_checkStartOfFile starts]
  exact ⟨whole, by omega⟩

end Checks

section Pass

variable {chunk : ChunkSize} {numLines : Nat} {state : BackwardsState} {data received : Text}
  (pieces : state.partialLineBuffer :: state.lineBuffer = split received)
include pieces

theorem updateBuffers_received :
    (updateBuffers data state.partialLineBuffer state.lineBuffer).1 ::
        (updateBuffers data state.partialLineBuffer state.lineBuffer).2 =
      split (data ++ received) := by
  rw [updateBuffers_pieces, split_append data pieces.symm]

theorem loopBody_next_received {next : BackwardsState}
    (continues : loopBody chunk numLines state data = .next next) :
    next.partialLineBuffer :: next.lineBuffer = split (data ++ received) := by
  rcases loopBody_cases chunk numLines state data with
    ⟨_, _, stops⟩ | ⟨_, _, _, _, stops⟩ | ⟨_, _, moves⟩
  · simp [stops] at continues
  · simp [stops] at continues
  · rw [moves] at continues
    cases continues
    exact updateBuffers_received pieces

theorem loopBody_stop_received (positive : 0 < numLines) {printed : List Text}
    (stops : loopBody chunk numLines state data = .stop printed) :
    (printed.flatten = data ++ received ∨
        lineDelimiter :: printed.flatten <:+ data ++ received) ∧
      printed.flatten.count lineDelimiter ≤ numLines := by
  have buffers : (updateBuffers data _ _).1 :: (updateBuffers data _ _).2 = _ :=
    updateBuffers_received pieces
  rcases loopBody_cases chunk numLines state data with
    ⟨printed', enough, stops'⟩ | ⟨notEnough, -, printed', starts, stops'⟩ | ⟨_, _, moves⟩
  · cases stops.symm.trans stops'
    exact (checkEnoughLinesRead_received buffers positive enough).imp_left .inr
  · cases stops.symm.trans stops'
    exact (checkStartOfFile_received buffers positive notEnough starts).imp_left .inl
  · cases stops.symm.trans moves

end Pass

section Loop

variable {numLines : Nat}

/-- Whatever the agent returns, the loop from buffers that are the pieces of
the text `received` so far prints a suffix of everything it then receives put
in front of that text. If it returns, that suffix is all of it or follows one of
its delimiters; and it holds at most `n` delimiters. -/
theorem tailBackwardsLoop_prints_received (chunk : ChunkSize) (readFn : Reader ε)
    (positive : 0 < numLines)
    {state : BackwardsState} {received : Text}
    (pieces : state.partialLineBuffer :: state.lineBuffer = split received) :
    (tailBackwardsLoop chunk readFn numLines state).output <:+
        receivedBackwards readFn (tailBackwardsLoop chunk readFn numLines state).reads ++
          received ∧
      ((tailBackwardsLoop chunk readFn numLines state).outcome = .ok () →
        (tailBackwardsLoop chunk readFn numLines state).output =
            receivedBackwards readFn (tailBackwardsLoop chunk readFn numLines state).reads ++
              received ∨
          lineDelimiter :: (tailBackwardsLoop chunk readFn numLines state).output <:+
            receivedBackwards readFn (tailBackwardsLoop chunk readFn numLines state).reads ++
              received) ∧
      (tailBackwardsLoop chunk readFn numLines state).output.count lineDelimiter ≤
        numLines := by
  induction readFn, numLines, state using tailBackwardsLoop.induct chunk
    generalizing received with
  | case1 readFn numLines state error raises =>
      rw [tailBackwardsLoop_of_error raises]
      exact ⟨List.nil_suffix, fun returns => by simp at returns, Nat.zero_le numLines⟩
  | case2 readFn numLines state resp answers printed stops =>
      rw [tailBackwardsLoop_of_stop answers stops]
      simp only [Run.output_eq, Run.printed_read_print, Run.reads_read_print,
        receivedBackwards_cons, receivedBackwards_nil, answers, answerData, List.nil_append]
      obtain ⟨ends, count⟩ := loopBody_stop_received pieces positive stops
      refine ⟨?_, fun _ => ends, count⟩
      rcases ends with whole | startsLine
      · exact whole ▸ List.suffix_refl _
      · exact (List.suffix_cons _ _).trans startsLine
  | case3 readFn numLines state resp answers next continues induction =>
      obtain ⟨suffix, ends, count⟩ :=
        induction positive (loopBody_next_received pieces continues)
      rw [tailBackwardsLoop_of_next answers continues]
      simp only [Run.output_afterRead, Run.outcome_afterRead, Run.reads_afterRead,
        receivedBackwards_cons, answers, answerData, List.append_assoc]
      exact ⟨suffix, ends, count⟩

end Loop

/-- Whatever the agent returns, `tail_backwards` prints only whole last lines
of the text its reads received, put together in file order (the last read
first): a suffix of that text which, if it returns, is all of it or follows one
of its delimiters; and it never prints more than `n` delimiters. -/
theorem tailBackwards_prints_received (chunk : ChunkSize) (fileSize : Nat)
    (readFn : Reader ε) {numLines : Nat} (positive : 0 < numLines) :
    let run := tailBackwards chunk fileSize readFn numLines
    run.output <:+ receivedBackwards readFn run.reads ∧
      (run.outcome = .ok () →
        run.output = receivedBackwards readFn run.reads ∨
          lineDelimiter :: run.output <:+ receivedBackwards readFn run.reads) ∧
      run.output.count lineDelimiter ≤ numLines := by
  have printsReceived := tailBackwardsLoop_prints_received chunk readFn positive
    (show (BackwardsState.initial chunk fileSize).partialLineBuffer ::
      (BackwardsState.initial chunk fileSize).lineBuffer = split [] from rfl)
  simp only [List.append_nil] at printsReceived
  exact printsReceived

theorem tailBackwards_prints_received_of_two_lines :
    (tailBackwards chunkSize 5 (staticFile (ε := String) "a\nb\nc".toList) 2).output.count
      lineDelimiter ≤ 2 :=
  (tailBackwards_prints_received chunkSize 5 (staticFile "a\nb\nc".toList) (by decide)).2.2

end CookTail
