import CookTail.Backwards.Correctness

/-! # A read that raises

`tail_backwards` prints only once its walk stops, after its last read. A read
that raises, as `read_file` does on any status but 200, ends the walk with that
exception and nothing printed.
-/

namespace CookTail

section Loop

variable {chunk : ChunkSize} {numLines : Nat}

theorem tailBackwardsLoop_events (readFn : Reader ε) (state : BackwardsState) :
    (tailBackwardsLoop chunk readFn numLines state).events =
      (tailBackwardsLoop chunk readFn numLines state).reads.map .read ++
        (tailBackwardsLoop chunk readFn numLines state).printed.map .print := by
  induction readFn, numLines, state using tailBackwardsLoop.induct chunk with
  | case1 readFn numLines state error raises =>
      simp [tailBackwardsLoop_of_error raises, Run.reads, Run.printed]
  | case2 readFn numLines state resp answers printed stops =>
      simp [tailBackwardsLoop_of_stop answers stops]
  | case3 readFn numLines state resp answers next continues induction =>
      rw [tailBackwardsLoop_of_next answers continues]
      simp [induction]

/-- A read of the loop that raises ends it: the run raises that exception and
has printed nothing. -/
theorem tailBackwardsLoop_of_raises {readFn : Reader ε} {state : BackwardsState} {index : Nat}
    {params : ReadParams} {error : ε}
    (issued : (tailBackwardsLoop chunk readFn numLines state).reads[index]? = some params)
    (raises : readFn index params = .error error) :
    (tailBackwardsLoop chunk readFn numLines state).outcome = .error error ∧
      (tailBackwardsLoop chunk readFn numLines state).printed = [] := by
  induction index generalizing readFn state with
  | zero =>
      cases Option.some.inj (tailBackwardsLoop_first_read.symm.trans issued)
      rw [tailBackwardsLoop_of_error raises]
      exact ⟨rfl, rfl⟩
  | succ index induction =>
      obtain ⟨resp, next, answers, continues, issued⟩ := tailBackwardsLoop_read_succ issued
      rw [tailBackwardsLoop_of_next answers continues]
      exact induction issued raises

theorem tailBackwardsLoop_output_or_nothing {file : Text} {readFn : Reader ε} {j : Nat}
    {state : BackwardsState} (positive : 0 < numLines)
    (faithfulOrRaises : AnsweredFaithfullyOrRaised readFn
      (tailBackwardsLoop chunk readFn numLines state) file)
    (at_ : AtIteration chunk file j state) :
    ((tailBackwardsLoop chunk readFn numLines state).outcome = .ok () ∧
        (tailBackwardsLoop chunk readFn numLines state).output = tailRef file numLines) ∨
      (∃ error, (tailBackwardsLoop chunk readFn numLines state).outcome = .error error) ∧
        (tailBackwardsLoop chunk readFn numLines state).printed = [] := by
  rcases tailBackwardsLoop_run (StopsAt chunk file numLines) (fun _ => tailRef file numLines)
      (fun at_ => at_.step positive) faithfulOrRaises at_ with
    ⟨-, -, -, error, -, -, raised, printed⟩ | ⟨-, -, -, -, returns, output⟩
  · exact .inr ⟨⟨error, raised⟩, printed⟩
  · exact .inl ⟨returns, output⟩

end Loop

/-- A read of `tail_backwards` that raises ends it with that exception and
nothing printed. Whatever the reads return, everything it prints comes after
its last read; so when each read it issues returns faithful data or raises,
what it prints is the reference output or nothing. -/
theorem tailBackwards_of_raises (chunk : ChunkSize) (file : Text) {numLines : Nat}
    (positive : 0 < numLines) :
    (∀ (readFn : Reader ε) (index : Nat) (params : ReadParams) (error : ε),
      (tailBackwards chunk file.length readFn numLines).reads[index]? = some params →
      readFn index params = .error error →
      (tailBackwards chunk file.length readFn numLines).outcome = .error error ∧
        (tailBackwards chunk file.length readFn numLines).printed = []) ∧
    (∀ readFn : Reader ε,
      (tailBackwards chunk file.length readFn numLines).events =
        (tailBackwards chunk file.length readFn numLines).reads.map .read ++
          (tailBackwards chunk file.length readFn numLines).printed.map .print) ∧
    (∀ readFn : Reader ε,
      AnsweredFaithfullyOrRaised readFn (tailBackwards chunk file.length readFn numLines) file →
      (tailBackwards chunk file.length readFn numLines).output = tailRef file numLines ∨
        (∃ error, (tailBackwards chunk file.length readFn numLines).outcome = .error error) ∧
          (tailBackwards chunk file.length readFn numLines).printed = []) :=
  ⟨fun _ _ _ _ issued raises => tailBackwardsLoop_of_raises issued raises,
    fun readFn => tailBackwardsLoop_events readFn _,
    fun _ faithfulOrRaises => (tailBackwardsLoop_output_or_nothing positive faithfulOrRaises
      (AtIteration.initial chunk file)).imp (fun finished => finished.2) id⟩

/-- The agent answers every request of the tail with a 404. -/
def missingFileAgent : Nat → AgentRequest → HttpResponse :=
  fun _ _ => ⟨404, .error "Not Found"⟩

theorem tailBackwards_of_raises_missing_file :
    (tailBackwards chunkSize "a\nb\nc".toList.length
      (readerOf missingFileAgent "/sandbox" "stdout") 2).outcome =
        .error (notFoundMessage "stdout") ∧
    (tailBackwards chunkSize "a\nb\nc".toList.length
      (readerOf missingFileAgent "/sandbox" "stdout") 2).printed = [] :=
  (tailBackwards_of_raises chunkSize "a\nb\nc".toList (by decide)).1 _ 0 _ _
    tailBackwardsLoop_first_read rfl

end CookTail
