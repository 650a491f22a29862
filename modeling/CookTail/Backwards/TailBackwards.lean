import CookTail.Remote.ReadFile

/-! # Walking a file backwards

`tail_backwards` and the checks it calls. The window size is a parameter: the
code uses `CHUNK_SIZE`, and the walk moves back only because it is positive.
Printing is recorded in the run; a check that prints and returns `True` is a
`some` of the texts it printed.
-/

namespace CookTail

/-- A size the walk can move its window back by. -/
structure ChunkSize where
  size : Nat
  positive : 0 < size

/-- `CHUNK_SIZE`. -/
def chunkSize : ChunkSize := ⟨4096, by decide⟩

/-- `print_lines(lines)`: the texts it prints. -/
def printLines (lines : List Text) : List Text := [join lines]

/-- `check_enough_lines_read(line_buffer, num_lines_to_print)`. -/
def checkEnoughLinesRead (lineBuffer : List Text) (numLinesToPrint : Nat) :
    Option (List Text) :=
  let numLinesBuffered := lineBuffer.length
  if 0 < numLinesBuffered then
    -- If the last line is empty, don't count it as a line that we care about
    let lastLineEmpty : Bool := lineBuffer.getLast? == some []
    let numLinesPrintable := numLinesBuffered - if lastLineEmpty then 1 else 0
    if numLinesToPrint ≤ numLinesPrintable then
      let numLinesToPrint := if lastLineEmpty then numLinesToPrint + 1 else numLinesToPrint
      some (printLines (lastItems lineBuffer numLinesToPrint))
    else none
  else none

/-- `check_start_of_file(offset, partial_line_buffer, line_buffer)`. -/
def checkStartOfFile (offset : Nat) (partialLineBuffer : Text) (lineBuffer : List Text) :
    Option (List Text) :=
  if offset = 0 then
    let numLinesBuffered := lineBuffer.length
    some (partialLineBuffer ::
      if 0 < numLinesBuffered then ['\n'] :: printLines lineBuffer else [])
  else none

/-- The local variables of `tail_backwards` at the top of its loop. -/
structure BackwardsState where
  offset : Nat
  length : Nat
  partialLineBuffer : Text
  lineBuffer : List Text
  deriving DecidableEq, Repr

/-- Lines 80-83: the variables before the first pass. -/
def BackwardsState.initial (chunk : ChunkSize) (fileSize : Nat) : BackwardsState :=
  let offset := fileSize - chunk.size
  let length := fileSize - offset
  ⟨offset, length, [], []⟩

/-- `read_fn(offset=offset, length=length)`. -/
def BackwardsState.params (state : BackwardsState) : ReadParams :=
  ⟨some state.offset, some state.length⟩

/-- Lines 91-98: the buffers once `data` is put in front and split. -/
def updateBuffers (data partialLineBuffer : Text) (lineBuffer : List Text) :
    Text × List Text :=
  let partialLineBuffer := data ++ partialLineBuffer
  let lines := split partialLineBuffer
  if 1 < lines.length then
    let indexFirstDelimiter := (lines.headD []).length
    (partialLineBuffer.take indexFirstDelimiter, lines.drop 1 ++ lineBuffer)
  else (partialLineBuffer, lineBuffer)

/-- How one pass through the loop body ends. -/
inductive Pass where
  /-- A check printed these texts and the loop breaks. -/
  | stop (printed : List Text)
  /-- The window moves back and the loop goes on from this state. -/
  | next (state : BackwardsState)

/-- Lines 88-111: the loop body once the read at its top returned `data`. -/
def loopBody (chunk : ChunkSize) (numLinesToPrint : Nat) (state : BackwardsState)
    (data : Text) : Pass :=
  let (partialLineBuffer, lineBuffer) :=
    updateBuffers data state.partialLineBuffer state.lineBuffer
  match checkEnoughLinesRead lineBuffer numLinesToPrint with
  | some printed => .stop printed
  | none =>
      match checkStartOfFile state.offset partialLineBuffer lineBuffer with
      | some printed => .stop printed
      | none =>
          let newOffset := state.offset - chunk.size
          .next ⟨newOffset, state.offset - newOffset, partialLineBuffer, lineBuffer⟩

/-- Every pass through the body either breaks, or moves to an offset no later
than `offset - chunk` and continues; so it ends with a read at offset `0` at the
latest. -/
theorem loopBody_cases (chunk : ChunkSize) (numLinesToPrint : Nat)
    (state : BackwardsState) (data : Text) :
    let buffers := updateBuffers data state.partialLineBuffer state.lineBuffer
    (∃ printed, checkEnoughLinesRead buffers.2 numLinesToPrint = some printed ∧
        loopBody chunk numLinesToPrint state data = .stop printed) ∨
    (checkEnoughLinesRead buffers.2 numLinesToPrint = none ∧ state.offset = 0 ∧
        ∃ printed, checkStartOfFile 0 buffers.1 buffers.2 = some printed ∧
          loopBody chunk numLinesToPrint state data = .stop printed) ∨
    (checkEnoughLinesRead buffers.2 numLinesToPrint = none ∧ state.offset ≠ 0 ∧
        loopBody chunk numLinesToPrint state data =
          .next ⟨state.offset - chunk.size, state.offset - (state.offset - chunk.size),
            buffers.1, buffers.2⟩) := by
  simp only [loopBody]
  split
  · next printed enough => exact .inl ⟨printed, enough, rfl⟩
  · next notEnough =>
      by_cases start : state.offset = 0
      · refine .inr (.inl ⟨notEnough, start, ?_⟩)
        simp [checkStartOfFile, start]
      · exact .inr (.inr ⟨notEnough, start, by simp [checkStartOfFile, start]⟩)

theorem loopBody_offset_lt {chunk : ChunkSize} {numLinesToPrint : Nat}
    {state next : BackwardsState} {data : Text}
    (continues : loopBody chunk numLinesToPrint state data = .next next) :
    next.offset < state.offset := by
  rcases loopBody_cases chunk numLinesToPrint state data with
    ⟨_, _, stops⟩ | ⟨_, _, _, _, stops⟩ | ⟨_, notStart, moves⟩
  · simp [stops] at continues
  · simp [stops] at continues
  · rw [moves] at continues
    cases continues
    have := chunk.positive
    dsimp only
    omega

/-- The `while True` loop of `tail_backwards` from `state`. It ends because a
pass that does not break moves the offset back. -/
def tailBackwardsLoop (chunk : ChunkSize) (readFn : Reader ε) (numLinesToPrint : Nat)
    (state : BackwardsState) : Run ε Unit :=
  match readFn 0 state.params with
  | .error error => ⟨[.read state.params], .error error⟩
  | .ok resp =>
      match _pass : loopBody chunk numLinesToPrint state resp.data with
      | .stop printed => ⟨.read state.params :: printed.map .print, .ok ()⟩
      | .next next =>
          (tailBackwardsLoop chunk (readFn.drop 1) numLinesToPrint next).afterRead
            state.params
termination_by state.offset
decreasing_by exact loopBody_offset_lt _pass

/-- `tail_backwards(file_size, read_fn, num_lines_to_print)`. -/
def tailBackwards (chunk : ChunkSize) (fileSize : Nat) (readFn : Reader ε)
    (numLinesToPrint : Nat) : Run ε Unit :=
  tailBackwardsLoop chunk readFn numLinesToPrint (BackwardsState.initial chunk fileSize)

/-! ## One pass of the loop -/

section Loop

variable {chunk : ChunkSize} {readFn : Reader ε} {numLinesToPrint : Nat}
  {state : BackwardsState}

theorem tailBackwardsLoop_of_error {error : ε}
    (raises : readFn 0 state.params = .error error) :
    tailBackwardsLoop chunk readFn numLinesToPrint state =
      ⟨[.read state.params], .error error⟩ := by
  rw [tailBackwardsLoop, raises]

theorem tailBackwardsLoop_of_stop {resp : ReadResponse} {printed : List Text}
    (answers : readFn 0 state.params = .ok resp)
    (stops : loopBody chunk numLinesToPrint state resp.data = .stop printed) :
    tailBackwardsLoop chunk readFn numLinesToPrint state =
      ⟨.read state.params :: printed.map .print, .ok ()⟩ := by
  rw [tailBackwardsLoop]
  split
  · simp_all
  · next resp' answers' =>
      rw [answers] at answers'
      cases answers'
      split <;> simp_all

theorem tailBackwardsLoop_of_next {resp : ReadResponse} {next : BackwardsState}
    (answers : readFn 0 state.params = .ok resp)
    (continues : loopBody chunk numLinesToPrint state resp.data = .next next) :
    tailBackwardsLoop chunk readFn numLinesToPrint state =
      (tailBackwardsLoop chunk (readFn.drop 1) numLinesToPrint next).afterRead
        state.params := by
  rw [tailBackwardsLoop]
  split
  · simp_all
  · next resp' answers' =>
      rw [answers] at answers'
      cases answers'
      split <;> simp_all

/-- The loop's first read is the one its state asks for. -/
theorem tailBackwardsLoop_first_read :
    (tailBackwardsLoop chunk readFn numLinesToPrint state).reads[0]? = some state.params := by
  cases answers : readFn 0 state.params with
  | error error => simp [tailBackwardsLoop_of_error answers, Run.reads]
  | ok resp =>
      cases stops : loopBody chunk numLinesToPrint state resp.data with
      | stop printed => simp [tailBackwardsLoop_of_stop answers stops]
      | next next => simp [tailBackwardsLoop_of_next answers stops]

theorem tailBackwardsLoop_read_succ {index : Nat} {params : ReadParams}
    (found : (tailBackwardsLoop chunk readFn numLinesToPrint state).reads[index + 1]? =
      some params) :
    ∃ resp next, readFn 0 state.params = .ok resp ∧
      loopBody chunk numLinesToPrint state resp.data = .next next ∧
      (tailBackwardsLoop chunk (readFn.drop 1) numLinesToPrint next).reads[index]? =
        some params := by
  cases answers : readFn 0 state.params with
  | error error => simp [tailBackwardsLoop_of_error answers, Run.reads] at found
  | ok resp =>
      cases continues : loopBody chunk numLinesToPrint state resp.data with
      | stop printed =>
          simp [tailBackwardsLoop_of_stop answers continues, Run.reads_read_print] at found
      | next next =>
          rw [tailBackwardsLoop_of_next answers continues, Run.reads_afterRead] at found
          exact ⟨resp, next, rfl, continues, List.getElem?_cons_succ.symm.trans found⟩

end Loop

/-- `LoopVisits chunk n readFn state later`: the loop from `state` recurses on
`later`, by passes whose reads returned and did not break. -/
inductive LoopVisits (chunk : ChunkSize) (numLinesToPrint : Nat) :
    Reader ε → BackwardsState → BackwardsState → Prop
  | start {readFn : Reader ε} {state : BackwardsState} :
      LoopVisits chunk numLinesToPrint readFn state state
  | next {readFn : Reader ε} {state next later : BackwardsState} {resp : ReadResponse} :
      readFn 0 state.params = .ok resp →
      loopBody chunk numLinesToPrint state resp.data = .next next →
      LoopVisits chunk numLinesToPrint (readFn.drop 1) next later →
      LoopVisits chunk numLinesToPrint readFn state later

section Visits

variable {chunk : ChunkSize} {numLinesToPrint : Nat}

theorem LoopVisits.issued {readFn : Reader ε} {state later : BackwardsState}
    (visits : LoopVisits chunk numLinesToPrint readFn state later) :
    ∃ index : Nat, (tailBackwardsLoop chunk readFn numLinesToPrint state).reads[index]? =
      some later.params := by
  induction visits with
  | start => exact ⟨0, tailBackwardsLoop_first_read⟩
  | next answers continues _ induction =>
      obtain ⟨index, found⟩ := induction
      exact ⟨index + 1, by rw [tailBackwardsLoop_of_next answers continues, Run.reads_afterRead,
        List.getElem?_cons_succ, found]⟩

end Visits

end CookTail
