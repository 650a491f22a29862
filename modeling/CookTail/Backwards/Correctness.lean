import CookTail.Backwards.LastLines

/-! # What `tail_backwards` prints and reads

Under faithful reads the output is the reference tail, the reads are the
windows `[o_(j+1), o_j)` from the end of the file, and the walk stops at the
first window that completes the lines asked for.
-/

namespace CookTail

theorem isSuffix_tailRef {file : Text} {offset numLines : Nat} (positive : 0 < numLines)
    (few : (file.drop offset).count lineDelimiter < linesNeeded file numLines) :
    file.drop offset <:+ tailRef file numLines := by
  obtain ⟨first, rest, pieces⟩ := List.exists_cons_of_ne_nil (split_ne_nil (file.drop offset))
  have whole := split_eq_of_drop pieces
  have short : rest.length < linesWanted (split file) numLines := by
    by_cases hasLine : rest = []
    · have := le_linesWanted (split file) numLines
      simp only [hasLine, List.length_nil]
      omega
    · rw [whole, linesWanted_append _ hasLine]
      have := mt (linesWanted_le_iff pieces positive).mp (by omega)
      omega
  have inside : (split file).length - linesWanted (split file) numLines <
      (split (file.take offset ++ first)).length := by
    have lengths := congrArg List.length whole
    have hasFront := List.length_pos.mpr (split_ne_nil (file.take offset ++ first))
    simp only [List.length_append] at lengths
    omega
  have firstFree := not_mem_of_mem_split (pieces ▸ List.mem_cons_self first rest)
  rw [tailRef_eq]
  generalize (split file).length - linesWanted (split file) numLines = start at inside
  obtain ⟨before, ends⟩ := isSuffix_join_drop_split _ firstFree start inside
  rw [whole, List.drop_append_of_le_length inside.le, join_append (by simpa using inside),
    ← join_split (file.drop offset), pieces, join_cons]
  exact ⟨before, by rw [← ends, List.append_assoc]⟩

theorem flatten_readData_windows (chunk : ChunkSize) (file : Text) (count : Nat) :
    (((List.range count).map (window chunk file.length)).reverse.map
        (fun params => readData file (params.offset.getD 0) (params.length.getD 0))).flatten =
      file.drop (windowOffset chunk file.length count) := by
  induction count with
  | zero => simp [windowOffset]
  | succ count induction =>
      have before := windowOffset_succ chunk file.length count
      rw [List.range_succ, List.map_append, List.reverse_append]
      simp only [List.map_cons, List.map_nil, List.reverse_cons, List.reverse_nil,
        List.nil_append, List.singleton_append, List.flatten_cons, induction]
      simpa [window] using readData_append_drop file (show
        windowOffset chunk file.length (count + 1) ≤ windowOffset chunk file.length count by omega)

theorem readCount_le {chunk : ChunkSize} {fileSize count : Nat}
    (before : ∀ i < count, 0 < windowOffset chunk fileSize (i + 1)) :
    count + 1 ≤ max 1 ((fileSize + chunk.size - 1) / chunk.size) := by
  cases count with
  | zero => exact le_max_left _ _
  | succ count =>
      have inside := before count (by omega)
      simp only [windowOffset] at inside
      refine le_trans ((Nat.le_div_iff_mul_le chunk.positive).mpr ?_) (le_max_right 1 _)
      rw [Nat.succ_mul]
      omega

section Faithful

variable (chunk : ChunkSize) (file : Text) {readFn : Reader ε} {numLines : Nat}

/-- When every read it issues is answered faithfully, `tail_backwards` returns,
and what it prints is the reference output: the suffix of the file that starts
at the start of its `n`-th line from the end. It keeps a final delimiter, adds
none, and is the whole file when the file has at most `n` lines. -/
theorem tailBackwards_output (positive : 0 < numLines)
    (faithful : AnsweredFaithfully readFn (tailBackwards chunk file.length readFn numLines) file) :
    let output := (tailBackwards chunk file.length readFn numLines).output
    (tailBackwards chunk file.length readFn numLines).outcome = .ok () ∧
      output = tailRef file numLines ∧ output <:+ file ∧
      (output = file ∨ lineDelimiter :: output <:+ file) ∧
      (file.getLast? = some lineDelimiter → output.getLast? = some lineDelimiter) ∧
      (file.count lineDelimiter < linesNeeded file numLines → output = file) := by
  obtain ⟨_, -, -, -, outcome, output⟩ :=
    tailBackwardsLoop_faithful faithful positive (AtIteration.initial chunk file)
  have isLast := isLastLines_output chunk file positive faithful
  exact ⟨outcome, output, isLast.1, isLast.2.1, isLast.getLast?_eq positive, isLast.eq_self⟩

theorem tailBackwards_output_of_three_lines :
    (tailBackwards chunkSize "a\nb\nc".toList.length
      (staticFile (ε := String) "a\nb\nc".toList) 2).output = "b\nc".toList :=
  (tailBackwards_output chunkSize _ (by decide)
    ((staticFile_readsFaithfully _).answered _)).2.1.trans (by decide)

/-- Under faithful reads the `j`-th read (counting from zero) is the window
`[o_(j+1), o_j)`. The windows lie in the file, are at most a chunk long and,
in a nonempty file, never empty; each later one ends where the one before it
starts; and their data, from the last read back to the first, is the file from
the last offset read on. -/
theorem tailBackwards_reads (positive : 0 < numLines)
    (faithful : AnsweredFaithfully readFn (tailBackwards chunk file.length readFn numLines) file) :
    let run := tailBackwards chunk file.length readFn numLines
    let offset := windowOffset chunk file.length
    let count := run.reads.length
    run.reads = (List.range count).map (window chunk file.length) ∧ 0 < count ∧
    (∀ j < count,
      offset (j + 1) + (offset j - offset (j + 1)) = offset j ∧ offset j ≤ file.length ∧
        offset j - offset (j + 1) ≤ chunk.size ∧
        (0 < file.length → 0 < offset j - offset (j + 1))) ∧
    (∀ i j, i < j → j < count → offset j ≤ offset (i + 1)) ∧
    receivedBackwards readFn run.reads = file.drop (offset count) ∧
    (offset count = 0 → receivedBackwards readFn run.reads = file) := by
  obtain ⟨count, reads, -, before, -⟩ :=
    tailBackwardsLoop_faithful faithful positive (AtIteration.initial chunk file)
  simp only [Nat.zero_add] at reads before
  have runReads : (tailBackwards chunk file.length readFn numLines).reads =
      (List.range (count + 1)).map (window chunk file.length) := reads
  have positiveChunk := chunk.positive
  have received := faithful.dataReceived fun params member => by
    obtain ⟨_, -, rfl⟩ := List.mem_map.mp (runReads ▸ member)
    exact ⟨_, _, rfl⟩
  have data : receivedBackwards readFn (tailBackwards chunk file.length readFn numLines).reads =
      file.drop (windowOffset chunk file.length (count + 1)) := by
    rw [receivedBackwards, received, ← List.map_reverse, runReads]
    exact flatten_readData_windows chunk file (count + 1)
  simp only [runReads, List.length_map, List.length_range, true_and] at data ⊢
  refine ⟨by omega, fun j below => ?_, fun i j earlier below => ?_, data,
    fun start => by rw [data, start, List.drop_zero]⟩
  · have moves := windowOffset_succ chunk file.length j
    have inFile : windowOffset chunk file.length j ≤ file.length := Nat.sub_le _ _
    refine ⟨by omega, inFile, by omega, fun nonempty => ?_⟩
    cases j with
    | zero =>
        simp only [windowOffset, Nat.zero_mul, Nat.zero_add, Nat.one_mul, Nat.sub_zero]
        omega
    | succ j =>
        have started := windowOffset_pos_of_not_stopsAt (before j (by omega))
        omega
  · simp only [windowOffset]
    have := Nat.mul_le_mul_right chunk.size (show i + 1 ≤ j by omega)
    omega

theorem tailBackwards_reads_of_three_lines :
    (tailBackwards chunkSize "a\nb\nc".toList.length
      (staticFile (ε := String) "a\nb\nc".toList) 2).reads =
    (List.range (tailBackwards chunkSize "a\nb\nc".toList.length
      (staticFile (ε := String) "a\nb\nc".toList) 2).reads.length).map
        (window chunkSize "a\nb\nc".toList.length) :=
  (tailBackwards_reads chunkSize _ (by decide) ((staticFile_readsFaithfully _).answered _)).1

/-- Under faithful reads the walk makes `r` reads, where `r` is the first
`k ≥ 1` at which it stops: the `k`-th window reaches the start of the file, or
the last `min(k * chunk, S)` characters hold the `m` delimiters needed. So it
never reads past the first window that completes the lines asked for, makes at
most `max(1, ceil(S / chunk))` reads, and reads at most a chunk more than it
prints. -/
theorem tailBackwards_readCount (positive : 0 < numLines)
    (faithful : AnsweredFaithfully readFn (tailBackwards chunk file.length readFn numLines) file) :
    let count := (tailBackwards chunk file.length readFn numLines).reads.length
    1 ≤ count ∧ StopsAt chunk file numLines count ∧
    (∀ k, 1 ≤ k → k < count → ¬StopsAt chunk file numLines k) ∧
    count ≤ max 1 ((file.length + chunk.size - 1) / chunk.size) ∧
    file.length - (file.length - count * chunk.size) ≤
      min file.length ((tailRef file numLines).length + chunk.size) := by
  obtain ⟨count, reads, stops, before, -⟩ :=
    tailBackwardsLoop_faithful faithful positive (AtIteration.initial chunk file)
  simp only [Nat.zero_add] at reads stops before
  have lengthEq : (tailBackwards chunk file.length readFn numLines).reads.length = count + 1 := by
    simp [tailBackwards, reads]
  have notStops (k : Nat) (first : 1 ≤ k) (below : k < count + 1) :
      ¬StopsAt chunk file numLines k := by
    simpa [Nat.sub_add_cancel first] using before (k - 1) (by omega)
  simp only [lengthEq]
  refine ⟨by omega, stops, notStops, ?_, ?_⟩
  · exact readCount_le fun i below =>
      windowOffset_pos_of_not_stopsAt (notStops (i + 1) (by omega) (by omega))
  · cases count with
    | zero => simp; omega
    | succ count =>
        have notStopped := notStops (count + 1) (by omega) (by omega)
        simp only [StopsAt, not_or, not_le] at notStopped
        obtain ⟨short, few⟩ := notStopped
        have inside := (isSuffix_tailRef positive few).length_le
        simp only [List.length_drop] at inside
        rw [Nat.succ_mul (count + 1)]
        generalize (count + 1) * chunk.size = covered at short inside ⊢
        omega

theorem tailBackwards_readCount_of_three_lines :
    (tailBackwards chunkSize "a\nb\nc".toList.length
      (staticFile (ε := String) "a\nb\nc".toList) 2).reads.length ≤ 1 :=
  (tailBackwards_readCount chunkSize _ (by decide)
    ((staticFile_readsFaithfully _).answered _)).2.2.2.1

end Faithful

/-! ## Whatever the reads return -/

/-- Whatever its reads return, the loop from the state before its `j`-th read
reads the windows from the `j`-th on, and goes past one only when it does not
reach the start of the file. -/
theorem tailBackwardsLoop_reads_windows {chunk : ChunkSize} {fileSize j numLines : Nat}
    (readFn : Reader ε) {state : BackwardsState}
    (params : state.params = window chunk fileSize j) :
    ∃ count,
      (tailBackwardsLoop chunk readFn numLines state).reads =
        (List.range (count + 1)).map (fun i => window chunk fileSize (j + i)) ∧
      ∀ i < count, 0 < windowOffset chunk fileSize (j + i + 1) := by
  induction readFn, numLines, state using tailBackwardsLoop.induct chunk generalizing j with
  | case1 readFn numLines state error raises =>
      rw [tailBackwardsLoop_of_error raises]
      exact ⟨0, by simp [Run.reads, params, List.range_succ], fun _ below =>
        absurd below (Nat.not_lt_zero _)⟩
  | case2 readFn numLines state resp answers printed stops =>
      rw [tailBackwardsLoop_of_stop answers stops]
      exact ⟨0, by simp [params, List.range_succ], fun _ below => absurd below (Nat.not_lt_zero _)⟩
  | case3 readFn numLines state resp answers next continues induction =>
      obtain ⟨inside, nextParams⟩ := loopBody_next_window params continues
      obtain ⟨count, reads, before⟩ := induction nextParams
      rw [tailBackwardsLoop_of_next answers continues]
      refine ⟨count + 1, ?_, ?_⟩
      · rw [Run.reads_afterRead, reads, List.range_succ_eq_map (count + 1), params]
        simp [Nat.add_assoc, Nat.add_comm 1]
      · rintro (_ | i) below
        · exact inside
        · simpa [Nat.add_assoc, Nat.add_comm 1] using before i (by omega)

/-- Whatever its reads return, `tail_backwards` reads only the windows
`[o_(j+1), o_j)` from the end of the file, in order, and goes past a window
only when it does not reach the start of the file; so it makes at least one and
at most `max(1, ceil(S / chunk))` reads. -/
theorem tailBackwards_windows (chunk : ChunkSize) (fileSize : Nat) (readFn : Reader ε)
    (numLines : Nat) :
    let count := (tailBackwards chunk fileSize readFn numLines).reads.length
    (tailBackwards chunk fileSize readFn numLines).reads =
      (List.range count).map (window chunk fileSize) ∧
    (∀ j, j + 1 < count → 0 < windowOffset chunk fileSize (j + 1)) ∧
    1 ≤ count ∧ count ≤ max 1 ((fileSize + chunk.size - 1) / chunk.size) := by
  obtain ⟨count, reads, before⟩ :=
    tailBackwardsLoop_reads_windows readFn (BackwardsState.initial_params chunk fileSize)
  simp only [Nat.zero_add] at reads before
  have runReads : (tailBackwards chunk fileSize readFn numLines).reads =
      (List.range (count + 1)).map (window chunk fileSize) := reads
  have lengthEq : (tailBackwards chunk fileSize readFn numLines).reads.length = count + 1 := by
    simp [runReads]
  simp only [lengthEq]
  exact ⟨runReads, fun j below => before j (by omega), by omega, readCount_le before⟩

/-! ## A file that grows while it is read -/

/-- Every read of `run`, its `index`-th with an offset and a length, got
`contents index [offset:offset + length]`: the file's content when the read was
answered. -/
def AnsweredFromContents (readFn : Reader ε) (run : Run ε α) (contents : Nat → Text) : Prop :=
  ∀ index offset length, run.reads[index]? = some ⟨some offset, some length⟩ →
    ∃ response, readFn index ⟨some offset, some length⟩ = .ok response ∧
      response.data = readData (contents index) offset length

theorem tailBackwards_read_inside {chunk : ChunkSize} {fileSize numLines : Nat}
    {readFn : Reader ε} {index offset length : Nat}
    (issued : (tailBackwards chunk fileSize readFn numLines).reads[index]? =
      some ⟨some offset, some length⟩) :
    offset + length ≤ fileSize := by
  obtain ⟨count, reads, -⟩ :=
    tailBackwardsLoop_reads_windows readFn (BackwardsState.initial_params chunk fileSize)
  rw [tailBackwards, reads, List.getElem?_eq_some_iff] at issued
  obtain ⟨_, found⟩ := issued
  simp only [List.getElem_map, List.getElem_range, window, ReadParams.mk.injEq,
    Option.some.injEq] at found
  have before := windowOffset_succ chunk fileSize (0 + index)
  have inFile : windowOffset chunk fileSize (0 + index) ≤ fileSize := Nat.sub_le _ _
  omega

/-- Reads answered from contents that all extend `file` are answered faithfully
from `file`, since each read of the walk back lies inside it. -/
theorem AnsweredFromContents.faithful {chunk : ChunkSize} {file : Text}
    {contents : Nat → Text} {readFn : Reader ε} {numLines : Nat}
    (grows : ∀ index, file <+: contents index)
    (answers : AnsweredFromContents readFn (tailBackwards chunk file.length readFn numLines)
      contents) :
    AnsweredFaithfully readFn (tailBackwards chunk file.length readFn numLines) file :=
  fun index offset length issued => by
    obtain ⟨response, answer, data⟩ := answers index offset length issued
    exact ⟨response, answer,
      data.trans (readData_of_grown (grows index) (tailBackwards_read_inside issued))⟩

/-- If the file only grows while `tail_backwards` walks back through it, what
it prints is still the last lines of the file as it was when its size was
taken: each read, answered from whatever the file then holds, lies inside that
first content. -/
theorem tailBackwards_of_growing (chunk : ChunkSize) (file : Text) (contents : Nat → Text)
    {readFn : Reader ε} {numLines : Nat} (positive : 0 < numLines)
    (grows : ∀ index, file <+: contents index)
    (answers : AnsweredFromContents readFn (tailBackwards chunk file.length readFn numLines)
      contents) :
    (tailBackwards chunk file.length readFn numLines).outcome = .ok () ∧
      (tailBackwards chunk file.length readFn numLines).output = tailRef file numLines := by
  obtain ⟨_, -, -, -, outcome, output⟩ :=
    tailBackwardsLoop_faithful (answers.faithful grows) positive (AtIteration.initial chunk file)
  exact ⟨outcome, output⟩

/-- The file grows by "d" before every read. -/
theorem tailBackwards_of_growing_of_appends :
    (tailBackwards chunkSize "a\nb\nc".toList.length
      (fun index => staticFile (ε := String) ("a\nb\nc".toList ++ List.replicate index 'd') index)
      2).output = tailRef "a\nb\nc".toList 2 :=
  (tailBackwards_of_growing chunkSize "a\nb\nc".toList
    (fun index => "a\nb\nc".toList ++ List.replicate index 'd') (by decide)
    (fun _ => List.prefix_append _ _) (fun _ _ _ _ => ⟨_, rfl, rfl⟩)).2

end CookTail
