import CookTail.Backwards.TailBackwards

/-! # The walk under faithful reads

What the checks of `tail_backwards` compute, the windows of its walk, and the
state at the top of its loop before each read when every read is faithful.
-/

namespace CookTail

/-! ## The checks -/

theorem updateBuffers_pieces (data partialLineBuffer : Text) (lineBuffer : List Text) :
    (updateBuffers data partialLineBuffer lineBuffer).1 ::
        (updateBuffers data partialLineBuffer lineBuffer).2 =
      split (data ++ partialLineBuffer) ++ lineBuffer := by
  obtain ⟨first, rest, pieces⟩ :=
    List.exists_cons_of_ne_nil (split_ne_nil (data ++ partialLineBuffer))
  simp only [updateBuffers, pieces]
  split_ifs with several
  · simp [take_length_head_split _ _ _ pieces]
  · obtain rfl : rest = [] := by simpa using several
    have joined := join_split (data ++ partialLineBuffer)
    rw [pieces, join_singleton] at joined
    simp [joined]

/-- The number of lines `check_enough_lines_read` waits for: one more than asked
when the last buffered line is the empty piece after a final delimiter. -/
def linesWanted (lineBuffer : List Text) (numLinesToPrint : Nat) : Nat :=
  if lineBuffer.getLast? = some [] then numLinesToPrint + 1 else numLinesToPrint

theorem linesWanted_append {lines : List Text} (front : List Text) (hasLine : lines ≠ [])
    (numLinesToPrint : Nat) :
    linesWanted (front ++ lines) numLinesToPrint = linesWanted lines numLinesToPrint := by
  simp [linesWanted, List.getLast?_append, List.getLast?_eq_getLast lines hasLine]

theorem le_linesWanted (lines : List Text) (numLinesToPrint : Nat) :
    numLinesToPrint ≤ linesWanted lines numLinesToPrint := by
  unfold linesWanted
  split_ifs <;> omega

theorem checkEnoughLinesRead_eq (lineBuffer : List Text) {numLinesToPrint : Nat}
    (positive : 0 < numLinesToPrint) :
    checkEnoughLinesRead lineBuffer numLinesToPrint =
      if linesWanted lineBuffer numLinesToPrint ≤ lineBuffer.length then
        some [join (lineBuffer.drop
          (lineBuffer.length - linesWanted lineBuffer numLinesToPrint))]
      else none := by
  unfold checkEnoughLinesRead linesWanted
  rcases lineBuffer.eq_nil_or_concat with rfl | ⟨front, last, rfl⟩
  · simp [positive.ne']
  · by_cases lastEmpty : last = []
    · simp [lastEmpty, lastItems, printLines]
    · simp [lastEmpty, lastItems, printLines, positive.ne']

theorem flatten_checkStartOfFile {partialLineBuffer : Text} {lineBuffer : List Text}
    {printed : List Text}
    (starts : checkStartOfFile 0 partialLineBuffer lineBuffer = some printed) :
    printed.flatten = join (partialLineBuffer :: lineBuffer) := by
  simp only [checkStartOfFile, if_true, Option.some.injEq] at starts
  subst starts
  cases lineBuffer with
  | nil => simp
  | cons line rest =>
      simpa [printLines] using
        (join_append_cons [partialLineBuffer] (List.cons_ne_nil _ _) line rest).symm

theorem checkEnoughLinesRead_eq_none_iff (lineBuffer : List Text) {numLinesToPrint : Nat}
    (positive : 0 < numLinesToPrint) :
    checkEnoughLinesRead lineBuffer numLinesToPrint = none ↔
      lineBuffer.length < linesWanted lineBuffer numLinesToPrint := by
  rw [checkEnoughLinesRead_eq _ positive]
  split_ifs <;> simp_all

/-! ## The file as the walk sees it -/

/-- `m`: the number of delimiters the walk needs to see, one more than the lines
asked for when the file ends with the delimiter. -/
def linesNeeded (file : Text) (numLines : Nat) : Nat :=
  if file.getLast? = some lineDelimiter then numLines + 1 else numLines

/-- The reference output of a tail: `'\n'.join(L[max(len(L) - m, 0):])` with
`L = F.split('\n')`, where `m` is one more than the lines asked for when the last
piece of `L` is empty. -/
def tailRef (file : Text) (numLines : Nat) : Text :=
  let lines := split file
  let wanted := if lines.getLast? = some [] then numLines + 1 else numLines
  join (lines.drop (lines.length - wanted))

example : tailRef "line1\nline2\nline3\nline4\nline5\n".toList 2 = "line4\nline5\n".toList := by
  decide

theorem tailRef_eq (file : Text) (numLines : Nat) :
    tailRef file numLines =
      join ((split file).drop ((split file).length - linesWanted (split file) numLines)) :=
  rfl

/-- The pieces of what follows `offset`, but the first, are the last pieces of
the whole file. -/
theorem split_eq_of_drop {file : Text} {offset : Nat} {first : Text} {rest : List Text}
    (pieces : split (file.drop offset) = first :: rest) :
    split file = split (file.take offset ++ first) ++ rest := by
  rw [← split_append _ pieces, List.take_append_drop]

theorem count_drop_eq_length {file : Text} {offset : Nat} {first : Text} {rest : List Text}
    (pieces : split (file.drop offset) = first :: rest) :
    (file.drop offset).count lineDelimiter = rest.length := by
  simpa [pieces] using (length_split (file.drop offset)).symm

theorem linesWanted_le_iff {file : Text} {offset : Nat} {first : Text} {rest : List Text}
    (pieces : split (file.drop offset) = first :: rest) {numLines : Nat}
    (positive : 0 < numLines) :
    linesWanted rest numLines ≤ rest.length ↔
      linesNeeded file numLines ≤ (file.drop offset).count lineDelimiter := by
  rw [count_drop_eq_length pieces]
  by_cases hasLine : rest = []
  · subst hasLine
    have := le_linesWanted [] numLines
    unfold linesNeeded
    split_ifs <;> simp <;> omega
  · have nonempty : file ≠ [] := by
      rintro rfl
      simp_all
    rw [← linesWanted_append (split (file.take offset ++ first)) hasLine,
      ← split_eq_of_drop pieces]
    simp [linesWanted, linesNeeded, getLast?_split_eq_nil_iff, nonempty]

/-! ## The windows -/

/-- `o_j`: where the `j`-th window from the end starts, counting windows from
one; `o_0` is the size of the file. -/
def windowOffset (chunk : ChunkSize) (fileSize j : Nat) : Nat :=
  fileSize - j * chunk.size

/-- The `j`-th read from the end, counting from zero: `[o_(j+1), o_j)`. -/
def window (chunk : ChunkSize) (fileSize j : Nat) : ReadParams :=
  ⟨some (windowOffset chunk fileSize (j + 1)),
    some (windowOffset chunk fileSize j - windowOffset chunk fileSize (j + 1))⟩

theorem windowOffset_succ (chunk : ChunkSize) (fileSize j : Nat) :
    windowOffset chunk fileSize (j + 1) = windowOffset chunk fileSize j - chunk.size := by
  simp [windowOffset, Nat.succ_mul, Nat.sub_sub]

/-- The data of a faithful read of `[offset, stop)`, followed by everything
after `stop`, is everything after `offset`. -/
theorem readData_append_drop (file : Text) {offset stop : Nat} (before : offset ≤ stop) :
    readData file offset (stop - offset) ++ file.drop stop = file.drop offset := by
  have whole := List.take_append_drop (stop - offset) (file.drop offset)
  rwa [List.drop_drop, Nat.add_sub_cancel' before] at whole

/-- The walk stops at its `k`-th read (counting from one) when that window
reaches the start of the file, or when the last `min(k * chunk, S)` characters
hold the `m` delimiters it needs. -/
def StopsAt (chunk : ChunkSize) (file : Text) (numLines k : Nat) : Prop :=
  file.length ≤ k * chunk.size ∨
    linesNeeded file numLines ≤ (file.drop (file.length - k * chunk.size)).count lineDelimiter

theorem BackwardsState.params_eq_window {chunk : ChunkSize} {fileSize j : Nat}
    {state : BackwardsState} :
    state.params = window chunk fileSize j ↔
      state.offset = windowOffset chunk fileSize (j + 1) ∧
        state.length = windowOffset chunk fileSize j - windowOffset chunk fileSize (j + 1) := by
  simp only [BackwardsState.params, window, ReadParams.mk.injEq, Option.some.injEq]

theorem BackwardsState.initial_params (chunk : ChunkSize) (fileSize : Nat) :
    (BackwardsState.initial chunk fileSize).params = window chunk fileSize 0 := by
  simp [BackwardsState.initial, BackwardsState.params, window, windowOffset]

/-- Whatever its read returned, a pass that does not break started from a
window that does not reach the start of the file, and moves to the window
before it. -/
theorem loopBody_next_window {chunk : ChunkSize} {fileSize j numLines : Nat}
    {state next : BackwardsState} {data : Text} (params : state.params = window chunk fileSize j)
    (continues : loopBody chunk numLines state data = .next next) :
    0 < windowOffset chunk fileSize (j + 1) ∧ next.params = window chunk fileSize (j + 1) := by
  obtain ⟨offset, -⟩ := BackwardsState.params_eq_window.mp params
  rcases loopBody_cases chunk numLines state data with
    ⟨_, _, stops⟩ | ⟨_, _, _, _, stops⟩ | ⟨_, notStart, moves⟩
  · simp [stops] at continues
  · simp [stops] at continues
  · rw [moves] at continues
    cases continues
    refine ⟨by omega, BackwardsState.params_eq_window.mpr ⟨?_, ?_⟩⟩ <;>
      simp only [windowOffset_succ _ _ (j + 1), offset]

theorem windowOffset_pos_of_not_stopsAt {chunk : ChunkSize} {file : Text} {numLines k : Nat}
    (goesOn : ¬StopsAt chunk file numLines k) : 0 < windowOffset chunk file.length k := by
  simp only [StopsAt, not_or, not_le] at goesOn
  simp only [windowOffset]
  omega

/-! ## The state before each read -/

/-- The state at the top of the loop before its `j`-th read (counting from
zero) when the reads before it were faithful: the window is the `j`-th from the
end, and the buffers hold the pieces of everything after it. -/
structure AtIteration (chunk : ChunkSize) (file : Text) (j : Nat)
    (state : BackwardsState) : Prop where
  params_eq : state.params = window chunk file.length j
  pieces_eq : state.partialLineBuffer :: state.lineBuffer =
    split (file.drop (windowOffset chunk file.length j))

namespace AtIteration

variable {chunk : ChunkSize} {file : Text} {j : Nat} {state : BackwardsState}

theorem initial (chunk : ChunkSize) (file : Text) :
    AtIteration chunk file 0 (BackwardsState.initial chunk file.length) :=
  ⟨BackwardsState.initial_params chunk file.length,
    by simp [BackwardsState.initial, windowOffset]⟩

theorem offset_eq (at_ : AtIteration chunk file j state) :
    state.offset = windowOffset chunk file.length (j + 1) :=
  (BackwardsState.params_eq_window.mp at_.params_eq).1

theorem length_eq (at_ : AtIteration chunk file j state) :
    state.length =
      windowOffset chunk file.length j - windowOffset chunk file.length (j + 1) :=
  (BackwardsState.params_eq_window.mp at_.params_eq).2

theorem pieces_after (at_ : AtIteration chunk file j state) :
    (updateBuffers (readData file state.offset state.length)
        state.partialLineBuffer state.lineBuffer).1 ::
      (updateBuffers (readData file state.offset state.length)
        state.partialLineBuffer state.lineBuffer).2 =
      split (file.drop (windowOffset chunk file.length (j + 1))) := by
  have before : windowOffset chunk file.length (j + 1) ≤ windowOffset chunk file.length j := by
    rw [windowOffset_succ]
    omega
  rw [updateBuffers_pieces, ← split_append _ at_.pieces_eq.symm, at_.offset_eq, at_.length_eq,
    readData_append_drop _ before]

end AtIteration

theorem tailRef_eq_self {file first : Text} {rest : List Text} {numLines : Nat}
    (pieces : split file = first :: rest) (positive : 0 < numLines)
    (short : rest.length < linesWanted rest numLines) : tailRef file numLines = file := by
  have fits : (first :: rest).length ≤ linesWanted (first :: rest) numLines := by
    by_cases hasLine : rest = []
    · subst hasLine
      have := le_linesWanted [first] numLines
      simp only [List.length_singleton]
      omega
    · rw [← List.singleton_append, linesWanted_append _ hasLine]
      simpa using short
  rw [tailRef_eq, pieces, Nat.sub_eq_zero_of_le fits, List.drop_zero, ← pieces, join_split]

theorem tailRef_eq_drop {file first : Text} {offset : Nat} {rest : List Text}
    {numLines : Nat} (pieces : split (file.drop offset) = first :: rest)
    (positive : 0 < numLines) (fits : linesWanted rest numLines ≤ rest.length) :
    tailRef file numLines = join (rest.drop (rest.length - linesWanted rest numLines)) := by
  have hasLine : rest ≠ [] := by
    rintro rfl
    have := le_linesWanted [] numLines
    simp at fits
    omega
  let front := split (file.take offset ++ first)
  have position : (front ++ rest).length - linesWanted rest numLines =
      front.length + (rest.length - linesWanted rest numLines) := by
    simp only [List.length_append]
    omega
  rw [tailRef_eq, split_eq_of_drop pieces, linesWanted_append _ hasLine, position,
    List.drop_append]

namespace AtIteration

variable {chunk : ChunkSize} {file : Text} {j : Nat} {state : BackwardsState}

theorem next (at_ : AtIteration chunk file j state) {numLines : Nat} {next : BackwardsState}
    (continues :
      loopBody chunk numLines state (readData file state.offset state.length) = .next next) :
    AtIteration chunk file (j + 1) next := by
  have params := (loopBody_next_window at_.params_eq continues).2
  rcases loopBody_cases chunk numLines state (readData file state.offset state.length) with
    ⟨_, _, stops⟩ | ⟨_, _, _, _, stops⟩ | ⟨_, _, moves⟩
  · simp [stops] at continues
  · simp [stops] at continues
  · rw [moves] at continues
    cases continues
    exact ⟨params, at_.pieces_after⟩

/-- One pass under a faithful read: it breaks exactly when the walk stops at
this read, and then prints the reference output; otherwise it reaches the state
before the next read. -/
theorem step (at_ : AtIteration chunk file j state) {numLines : Nat} (positive : 0 < numLines) :
    (∃ printed,
        loopBody chunk numLines state (readData file state.offset state.length) =
          .stop printed ∧
        StopsAt chunk file numLines (j + 1) ∧ printed.flatten = tailRef file numLines) ∨
    (∃ next,
        loopBody chunk numLines state (readData file state.offset state.length) =
          .next next ∧
        ¬StopsAt chunk file numLines (j + 1) ∧ AtIteration chunk file (j + 1) next) := by
  have pieces := at_.pieces_after
  have offset := at_.offset_eq
  rw [windowOffset] at offset
  rcases loopBody_cases chunk numLines state (readData file state.offset state.length) with
    ⟨printed, enough, stops⟩ | ⟨notEnough, start, printed, starts, stops⟩ |
      ⟨notEnough, notStart, moves⟩
  · rw [checkEnoughLinesRead_eq _ positive] at enough
    split_ifs at enough with fits
    cases enough
    refine .inl ⟨_, stops, .inr ((linesWanted_le_iff pieces.symm positive).mp fits), ?_⟩
    simp [tailRef_eq_drop pieces.symm positive fits]
  · rw [checkEnoughLinesRead_eq_none_iff _ positive] at notEnough
    have whole := pieces.symm
    rw [at_.offset_eq.symm.trans start, List.drop_zero] at whole
    refine .inl ⟨printed, stops, .inl (by omega), ?_⟩
    rw [flatten_checkStartOfFile starts, ← whole, join_split,
      tailRef_eq_self whole positive notEnough]
  · rw [checkEnoughLinesRead_eq_none_iff _ positive] at notEnough
    refine .inr ⟨_, moves, ?_, at_.next moves⟩
    rintro (reached | enough)
    · omega
    · have := (linesWanted_le_iff pieces.symm positive).mpr enough
      omega

end AtIteration

/-! ## The whole walk -/

section Answers

variable {chunk : ChunkSize} {readFn : Reader ε} {numLines : Nat} {state : BackwardsState}
  {file : Text}

theorem AnsweredFaithfully.not_error
    (faithful : AnsweredFaithfully readFn (tailBackwardsLoop chunk readFn numLines state) file)
    (error : ε) : readFn 0 state.params ≠ .error error := by
  obtain ⟨resp, answers, -⟩ :=
    faithful 0 state.offset state.length tailBackwardsLoop_first_read
  intro raises
  cases raises.symm.trans answers

end Answers

section Run

variable {chunk : ChunkSize} {file : Text} {numLines : Nat} (stopsAt : Nat → Prop)
  (out : Nat → Text)
  (step : ∀ {j : Nat} {state : BackwardsState}, AtIteration chunk file j state →
    (∃ printed,
        loopBody chunk numLines state (readData file state.offset state.length) =
          .stop printed ∧
        stopsAt (j + 1) ∧ printed.flatten = out (j + 1)) ∨
    (∃ next,
        loopBody chunk numLines state (readData file state.offset state.length) =
          .next next ∧
        ¬stopsAt (j + 1) ∧ AtIteration chunk file (j + 1) next))
include step

/-- The run of the walk back from the state before its `j`-th read, when a pass
under a faithful read stops where `stopsAt` says, printing `out`, and goes on
otherwise. If every read it issues is faithful or raises, it raises at one of
them with nothing printed, or it reads the windows from the `j`-th on up to the
first where it stops and prints `out` there. -/
theorem tailBackwardsLoop_run {readFn : Reader ε} {j : Nat} {state : BackwardsState}
    (answered : AnsweredFaithfullyOrRaised readFn
      (tailBackwardsLoop chunk readFn numLines state) file)
    (at_ : AtIteration chunk file j state) :
    (∃ index offset length error,
        (tailBackwardsLoop chunk readFn numLines state).reads[index]? =
          some ⟨some offset, some length⟩ ∧
        readFn index ⟨some offset, some length⟩ = .error error ∧
        (tailBackwardsLoop chunk readFn numLines state).outcome = .error error ∧
        (tailBackwardsLoop chunk readFn numLines state).printed = []) ∨
    ∃ count,
      (tailBackwardsLoop chunk readFn numLines state).reads =
        (List.range (count + 1)).map (fun i => window chunk file.length (j + i)) ∧
      stopsAt (j + count + 1) ∧ (∀ i < count, ¬stopsAt (j + i + 1)) ∧
      (tailBackwardsLoop chunk readFn numLines state).outcome = .ok () ∧
      (tailBackwardsLoop chunk readFn numLines state).output = out (j + count + 1) := by
  induction readFn, numLines, state using tailBackwardsLoop.induct chunk
    generalizing j with
  | case1 readFn numLines state error raises =>
      rw [tailBackwardsLoop_of_error raises]
      exact .inl ⟨0, state.offset, state.length, error, rfl, raises, rfl, rfl⟩
  | case2 readFn numLines state resp answers printed breaks =>
      have data := answered 0 state.offset state.length resp tailBackwardsLoop_first_read answers
      rw [tailBackwardsLoop_of_stop answers breaks]
      rw [data] at breaks
      rcases step at_ with ⟨_, breaks', stops, output⟩ | ⟨_, continues, -⟩
      · cases breaks.symm.trans breaks'
        exact .inr ⟨0, by simp [at_.params_eq, List.range_succ], stops, by simp, rfl,
          by simpa using output⟩
      · cases breaks.symm.trans continues
  | case3 readFn numLines state resp answers next continues induction =>
      have data := answered 0 state.offset state.length resp tailBackwardsLoop_first_read answers
      rw [tailBackwardsLoop_of_next answers continues] at answered ⊢
      rw [data] at continues
      rcases step at_ with ⟨_, breaks, -⟩ | ⟨_, continues', goesOn, at'⟩
      · cases continues.symm.trans breaks
      · cases continues.symm.trans continues'
        rcases induction step answered.afterRead at' with
          ⟨index, offset, length, error, found, raises, outcome, printed⟩ |
          ⟨count, reads, stops, before, outcome, output⟩
        · exact .inl ⟨index + 1, offset, length, error, List.getElem?_cons_succ.trans found,
            raises, outcome, printed⟩
        · have shift (i : Nat) : j + 1 + i = j + (i + 1) := by omega
          rw [shift] at stops output
          refine .inr ⟨count + 1, ?_, stops, ?_, outcome, output⟩
          · rw [Run.reads_afterRead, reads, List.range_succ_eq_map (count + 1), at_.params_eq]
            simp [shift]
          · rintro (_ | i) below
            · exact goesOn
            · rw [← shift]
              exact before i (by omega)

theorem tailBackwardsLoop_faithfulRun {readFn : Reader ε} {j : Nat} {state : BackwardsState}
    (faithful : AnsweredFaithfully readFn (tailBackwardsLoop chunk readFn numLines state) file)
    (at_ : AtIteration chunk file j state) :
    ∃ count,
      (tailBackwardsLoop chunk readFn numLines state).reads =
        (List.range (count + 1)).map (fun i => window chunk file.length (j + i)) ∧
      stopsAt (j + count + 1) ∧ (∀ i < count, ¬stopsAt (j + i + 1)) ∧
      (tailBackwardsLoop chunk readFn numLines state).outcome = .ok () ∧
      (tailBackwardsLoop chunk readFn numLines state).output = out (j + count + 1) :=
  (tailBackwardsLoop_run stopsAt out step faithful.orRaised at_).resolve_left
    fun ⟨index, offset, length, _, found, raises, _⟩ =>
      let ⟨_, answers, _⟩ := faithful index offset length found
      by cases raises.symm.trans answers

end Run

/-- Under faithful reads, the loop from the state before its `j`-th read reads
the windows from the `j`-th on, up to the first at which the walk stops, and
prints the reference output. -/
theorem tailBackwardsLoop_faithful {chunk : ChunkSize} {file : Text} {readFn : Reader ε}
    {numLines : Nat} {j : Nat} {state : BackwardsState}
    (faithful : AnsweredFaithfully readFn (tailBackwardsLoop chunk readFn numLines state) file)
    (positive : 0 < numLines) (at_ : AtIteration chunk file j state) :
    ∃ count,
      (tailBackwardsLoop chunk readFn numLines state).reads =
        (List.range (count + 1)).map (fun i => window chunk file.length (j + i)) ∧
      StopsAt chunk file numLines (j + count + 1) ∧
      (∀ i < count, ¬StopsAt chunk file numLines (j + i + 1)) ∧
      (tailBackwardsLoop chunk readFn numLines state).outcome = .ok () ∧
      (tailBackwardsLoop chunk readFn numLines state).output = tailRef file numLines :=
  tailBackwardsLoop_faithfulRun (StopsAt chunk file numLines) (fun _ => tailRef file numLines)
    (fun at_ => at_.step positive) faithful at_

end CookTail
