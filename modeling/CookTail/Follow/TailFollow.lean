import CookTail.Backwards.TailBackwards

/-! # Following a growing file

`tail_follow` polls the file forever from the size it had when the tail began;
the model is its first polls, each one pass of its loop. The model keeps no
time: the `time.sleep(follow_sleep_seconds)` that ends a pass is what that call
does, return or raise, the same at every pass since the interval is fixed. The
file only grows: `contents i` is its content at the `i`-th poll, and
`contents 0` its content when the follower starts.
-/

namespace CookTail

/-- One pass of the loop of `tail_follow` (lines 119-126), its `index`-th read,
from `offset`, ending with the sleep, which does what `sleep` says: it returns
the offset of the next pass, or raises. -/
def followPass (chunk : ChunkSize) (readFn : Reader ε) (sleep : Except ε Unit)
    (index offset : Nat) : Run ε Nat :=
  let length := chunk.size
  let params : ReadParams := ⟨some offset, some length⟩
  match readFn index params with
  | .error error => ⟨[.read params], .error error⟩
  | .ok resp =>
      let data := resp.data
      let numCharsRead := data.length
      if 0 < numCharsRead then
        ⟨[.read params, .print data], sleep.map fun _ => offset + numCharsRead⟩
      else ⟨[.read params], sleep.map fun _ => offset⟩

/-- `tail_follow(file_size, read_fn, follow_sleep_seconds)` for its first
`polls` passes, where sleeping on `follow_sleep_seconds` does what `sleep`
says; its loop never ends on its own. The run returns the offset the next pass
reads from. -/
def tailFollow (chunk : ChunkSize) (fileSize : Nat) (readFn : Reader ε)
    (sleep : Except ε Unit) : (polls : Nat) → Run ε Nat
  | 0 => ⟨[], .ok fileSize⟩
  | polls + 1 =>
      (tailFollow chunk fileSize readFn sleep polls).andThen (followPass chunk readFn sleep polls)

/-- A pass prints what its read returned, and moves the offset past it before
it sleeps. -/
theorem followPass_of_ok {chunk : ChunkSize} {readFn : Reader ε} {sleep : Except ε Unit}
    {index offset : Nat} {resp : ReadResponse}
    (answers : readFn index ⟨some offset, some chunk.size⟩ = .ok resp) :
    (followPass chunk readFn sleep index offset).outcome =
        sleep.map (fun _ => offset + resp.data.length) ∧
      (followPass chunk readFn sleep index offset).printed.flatten = resp.data := by
  simp only [followPass, answers]
  split_ifs with nonempty
  · simp [Run.printed]
  · simp_all [Run.printed]

theorem followPass_outcome_of_ok {chunk : ChunkSize} {readFn : Reader ε} {sleep : Except ε Unit}
    (sleeps : sleep = .ok ()) {index offset : Nat} {resp : ReadResponse}
    (answers : readFn index ⟨some offset, some chunk.size⟩ = .ok resp) :
    (followPass chunk readFn sleep index offset).outcome = .ok (offset + resp.data.length) := by
  rw [(followPass_of_ok answers).1, sleeps]
  rfl

theorem followPass_reads (chunk : ChunkSize) (readFn : Reader ε) (sleep : Except ε Unit)
    (index offset : Nat) :
    (followPass chunk readFn sleep index offset).reads = [⟨some offset, some chunk.size⟩] := by
  simp only [followPass]
  split
  · rfl
  · split <;> rfl

/-! ## The reads of the first polls -/

section Polls

variable {chunk : ChunkSize} {fileSize : Nat} {readFn : Reader ε} {sleep : Except ε Unit}

theorem tailFollow_reads_succ {polls cursor : Nat}
    (returns : (tailFollow chunk fileSize readFn sleep polls).outcome = .ok cursor) :
    (tailFollow chunk fileSize readFn sleep (polls + 1)).reads =
      (tailFollow chunk fileSize readFn sleep polls).reads ++ [⟨some cursor, some chunk.size⟩] := by
  rw [tailFollow, Run.reads_andThen_of_ok returns, followPass_reads]

theorem tailFollow_reads_length {polls cursor : Nat}
    (returns : (tailFollow chunk fileSize readFn sleep polls).outcome = .ok cursor) :
    (tailFollow chunk fileSize readFn sleep polls).reads.length = polls := by
  induction polls generalizing cursor with
  | zero => rfl
  | succ polls induction =>
      obtain ⟨before, returnsBefore, -⟩ := Run.exists_of_andThen_eq_ok returns
      rw [tailFollow_reads_succ returnsBefore, List.length_append, induction returnsBefore]
      rfl

theorem tailFollow_events_extend {polls later : Nat} (earlier : polls ≤ later) :
    (tailFollow chunk fileSize readFn sleep polls).events <+:
      (tailFollow chunk fileSize readFn sleep later).events := by
  induction later, earlier using Nat.le_induction with
  | base => exact List.prefix_refl _
  | succ later _ induction => exact induction.trans (Run.events_prefix_andThen _ _)

theorem tailFollow_read_at {i polls cursor : Nat} (below : i < polls)
    (returns : (tailFollow chunk fileSize readFn sleep i).outcome = .ok cursor) :
    (tailFollow chunk fileSize readFn sleep polls).reads[i]? = some ⟨some cursor, some chunk.size⟩ := by
  obtain ⟨rest, extends_⟩ : (tailFollow chunk fileSize readFn sleep (i + 1)).reads <+:
      (tailFollow chunk fileSize readFn sleep polls).reads :=
    (tailFollow_events_extend below).filterMap Event.request
  have length := tailFollow_reads_length returns
  rw [← extends_, tailFollow_reads_succ returns, List.append_assoc,
    List.getElem?_append_right length.le, length, Nat.sub_self, List.singleton_append,
    List.getElem?_cons_zero]

end Polls

/-- Every read of `run`, its `index`-th (counting from zero) from `offset` for a
chunk, returned data that `answer index offset` accepts. -/
def AnsweredWith (chunk : ChunkSize) (readFn : Reader ε) (run : Run ε α)
    (answer : Nat → Nat → Text → Prop) : Prop :=
  ∀ index offset, run.reads[index]? = some ⟨some offset, some chunk.size⟩ →
    ∃ response, readFn index ⟨some offset, some chunk.size⟩ = .ok response ∧
      answer index offset response.data

/-- The agent answers the `index`-th poll (counting from zero) from the file's
content at that poll, `contents (index + 1)`: with some prefix of
`contents (index + 1) [offset:offset + chunk]`. -/
def growingAnswer (chunk : ChunkSize) (contents : Nat → Text) (index offset : Nat)
    (data : Text) : Prop :=
  data <+: readData (contents (index + 1)) offset chunk.size

/-- The agent answers the `index`-th poll with all of
`contents (index + 1) [offset:offset + chunk]`. -/
def exactAnswer (chunk : ChunkSize) (contents : Nat → Text) (index offset : Nat)
    (data : Text) : Prop :=
  data = readData (contents (index + 1)) offset chunk.size

section Answers

variable {chunk : ChunkSize} {fileSize polls : Nat} {readFn : Reader ε} {sleep : Except ε Unit}
  {answer : Nat → Nat → Text → Prop}

theorem AnsweredWith.read_at
    (answers : AnsweredWith chunk readFn (tailFollow chunk fileSize readFn sleep polls) answer)
    {i cursor : Nat} (below : i < polls)
    (returns : (tailFollow chunk fileSize readFn sleep i).outcome = .ok cursor) :
    ∃ response, readFn i ⟨some cursor, some chunk.size⟩ = .ok response ∧
      answer i cursor response.data :=
  answers i cursor (tailFollow_read_at below returns)

theorem AnsweredWith.growing {contents : Nat → Text}
    (answers : AnsweredWith chunk readFn (tailFollow chunk fileSize readFn sleep polls)
      (exactAnswer chunk contents)) :
    AnsweredWith chunk readFn (tailFollow chunk fileSize readFn sleep polls)
      (growingAnswer chunk contents) :=
  fun index offset issued => by
    obtain ⟨response, answer, whole⟩ := answers index offset issued
    unfold exactAnswer at whole
    exact ⟨response, answer, by unfold growingAnswer; exact whole ▸ List.prefix_refl _⟩

end Answers

/-- What was written up to `cursor`, followed by data read at `cursor`, is what
a later content holds up to the cursor past that data. -/
theorem take_drop_append {earlier later data : Text} {start cursor : Nat}
    (grows : earlier <+: later) (began : start ≤ cursor) (inside : cursor ≤ earlier.length)
    (atCursor : data <+: readData later cursor data.length) :
    (earlier.take cursor).drop start ++ data = (later.take (cursor + data.length)).drop start := by
  have sameStart : earlier.take cursor = later.take cursor := by
    rw [List.prefix_iff_eq_take.mp grows, List.take_take, Nat.min_eq_left inside]
  have dataEq : data = (later.drop cursor).take data.length :=
    (List.prefix_iff_eq_take.mp atCursor).trans (by rw [readData, List.take_take, Nat.min_self])
  rw [sameStart, List.take_add, ← dataEq, List.drop_append_of_le_length]
  simp only [List.length_take]
  have := grows.length_le
  omega

/-! ## A growing file -/

section Follow

variable {chunk : ChunkSize} {contents : Nat → Text} {fileSize polls : Nat} {readFn : Reader ε}
  {sleep : Except ε Unit}
  (grows : ∀ i < polls, contents i <+: contents (i + 1))
  (started : fileSize ≤ (contents 0).length) (sleeps : sleep = .ok ())
include grows started sleeps

/-- The follower's invariant: after each of its first polls the run goes on,
its offset lies between where it started and the end of the file at that poll,
and it has written exactly the file's content between the two. -/
theorem tailFollow_invariant
    (answers : AnsweredWith chunk readFn (tailFollow chunk fileSize readFn sleep polls)
      (growingAnswer chunk contents))
    {i : Nat} (bounded : i ≤ polls) :
    ∃ cursor, (tailFollow chunk fileSize readFn sleep i).outcome = .ok cursor ∧
      fileSize ≤ cursor ∧ cursor ≤ (contents i).length ∧
      (tailFollow chunk fileSize readFn sleep i).output =
        ((contents i).take cursor).drop fileSize := by
  induction i with
  | zero =>
      exact ⟨fileSize, rfl, le_refl _, started,
        (List.drop_eq_nil_of_le (List.length_take_le _ _)).symm⟩
  | succ i induction =>
      obtain ⟨cursor, returns, began, inside, output⟩ := induction (by omega)
      obtain ⟨resp, answer, returned⟩ := answers.read_at bounded returns
      have passReturns := followPass_outcome_of_ok sleeps answer
      have passPrints : (followPass chunk readFn sleep i cursor).printed.flatten = resp.data :=
        (followPass_of_ok answer).2
      have fits : cursor + resp.data.length ≤ (contents (i + 1)).length := by
        have short := returned.length_le
        have longer := (grows i bounded).length_le
        simp only [readData, List.length_take, List.length_drop] at short
        omega
      refine ⟨_, by rw [tailFollow, Run.outcome_andThen_of_ok returns, passReturns], by omega,
        fits, ?_⟩
      rw [Run.output_eq] at output
      rw [tailFollow, Run.output_eq, Run.printed_andThen_of_ok returns, List.flatten_append,
        output, passPrints]
      exact take_drop_append (grows i bounded) began inside
        (List.prefix_take_iff.mpr ⟨List.prefix_take_iff.mp returned |>.1, le_refl _⟩)

variable (answers : AnsweredWith chunk readFn (tailFollow chunk fileSize readFn sleep polls)
  (exactAnswer chunk contents))
include answers

theorem tailFollow_succ_of_exact {i cursor : Nat} (below : i < polls)
    (returns : (tailFollow chunk fileSize readFn sleep i).outcome = .ok cursor) :
    (tailFollow chunk fileSize readFn sleep (i + 1)).outcome =
      .ok (min (cursor + chunk.size) (contents (i + 1)).length) := by
  obtain ⟨cursor', returns', -, inside, -⟩ :=
    tailFollow_invariant grows started sleeps answers.growing below.le
  rw [returns] at returns'
  cases returns'
  obtain ⟨resp, answer, data⟩ := answers.read_at below returns
  have longer := (grows i below).length_le
  rw [tailFollow, Run.outcome_andThen_of_ok returns, followPass_outcome_of_ok sleeps answer, data]
  simp only [readData, List.length_take, List.length_drop]
  congr 1
  omega

theorem tailFollow_outcome_of_final {start cursor : Nat} {final : Text}
    (stopped : ∀ i, start ≤ i → i ≤ polls → contents i = final)
    (returns : (tailFollow chunk fileSize readFn sleep start).outcome = .ok cursor) {more : Nat}
    (bounded : start + more ≤ polls) :
    (tailFollow chunk fileSize readFn sleep (start + more)).outcome =
      .ok (min (cursor + more * chunk.size) final.length) := by
  induction more with
  | zero =>
      rw [Nat.add_zero] at bounded ⊢
      obtain ⟨cursor', returns', -, inside, -⟩ :=
        tailFollow_invariant grows started sleeps answers.growing bounded
      rw [returns] at returns'
      cases returns'
      rw [stopped start le_rfl bounded] at inside
      simpa [Nat.min_eq_left inside] using returns
  | succ more induction =>
      rw [← Nat.add_assoc, tailFollow_succ_of_exact grows started sleeps answers (by omega)
        (induction (by omega)), stopped _ (by omega) (by omega), Nat.succ_mul]
      congr 1
      omega

end Follow

/-- Over its first `k` polls of a file that only grows, started at offset `S`,
`tail_follow` goes on polling; after every poll its offset has moved by what
the poll returned, stays within the file at that poll, and what it has written
is exactly the file between `S` and the offset, each later write extending the
earlier ones. When every read returns all it can, a poll moves the offset a
chunk forward or to the end of the file, and once the file stops growing
everything after `S` is written within `ceil((|G| - o) / chunk)` more polls
from offset `o`. -/
theorem tailFollow_emits_appended (chunk : ChunkSize) (contents : Nat → Text)
    (fileSize polls : Nat) (grows : ∀ i < polls, contents i <+: contents (i + 1))
    (started : fileSize ≤ (contents 0).length) {sleep : Except ε Unit}
    (sleeps : sleep = .ok ()) :
    (∀ readFn : Reader ε,
      AnsweredWith chunk readFn (tailFollow chunk fileSize readFn sleep polls)
        (growingAnswer chunk contents) →
      (∀ i ≤ polls, ∃ cursor, (tailFollow chunk fileSize readFn sleep i).outcome = .ok cursor ∧
        fileSize ≤ cursor ∧ cursor ≤ (contents i).length ∧
        (tailFollow chunk fileSize readFn sleep i).output = ((contents i).take cursor).drop fileSize) ∧
      (∀ i < polls, ∃ cursor response,
        (tailFollow chunk fileSize readFn sleep i).outcome = .ok cursor ∧
        readFn i ⟨some cursor, some chunk.size⟩ = .ok response ∧
        (tailFollow chunk fileSize readFn sleep (i + 1)).outcome =
          .ok (cursor + response.data.length) ∧
        (tailFollow chunk fileSize readFn sleep i).events <+:
          (tailFollow chunk fileSize readFn sleep (i + 1)).events)) ∧
    (∀ readFn : Reader ε,
      AnsweredWith chunk readFn (tailFollow chunk fileSize readFn sleep polls)
        (exactAnswer chunk contents) →
      (∀ i < polls, ∀ cursor, (tailFollow chunk fileSize readFn sleep i).outcome = .ok cursor →
        (tailFollow chunk fileSize readFn sleep (i + 1)).outcome =
          .ok (min (cursor + chunk.size) (contents (i + 1)).length)) ∧
      (∀ start cursor (final : Text), (∀ i, start ≤ i → i ≤ polls → contents i = final) →
        (tailFollow chunk fileSize readFn sleep start).outcome = .ok cursor →
        start + (final.length - cursor + chunk.size - 1) / chunk.size ≤ polls →
        (tailFollow chunk fileSize readFn sleep
          (start + (final.length - cursor + chunk.size - 1) / chunk.size)).output =
            final.drop fileSize)) := by
  refine ⟨fun readFn answers => ⟨fun i => tailFollow_invariant grows started sleeps answers,
    fun i below => ?_⟩, fun readFn answers => ⟨fun i below cursor =>
      tailFollow_succ_of_exact grows started sleeps answers below,
    fun start cursor final stopped returns bounded => ?_⟩⟩
  · obtain ⟨cursor, returns, -⟩ := tailFollow_invariant grows started sleeps answers below.le
    obtain ⟨resp, answer, -⟩ := answers.read_at below returns
    refine ⟨cursor, resp, returns, answer, ?_, tailFollow_events_extend (Nat.le_succ i)⟩
    rw [tailFollow, Run.outcome_andThen_of_ok returns, followPass_outcome_of_ok sleeps answer]
  · obtain ⟨cursor', returns', -, -, output⟩ :=
      tailFollow_invariant grows started sleeps answers.growing bounded
    rw [tailFollow_outcome_of_final grows started sleeps answers stopped returns bounded] at returns'
    cases returns'
    have covers := Nat.lt_div_mul_add (a := final.length - cursor + chunk.size - 1) chunk.positive
    generalize (final.length - cursor + chunk.size - 1) / chunk.size = more
      at covers output bounded ⊢
    rw [output, stopped _ (by omega) bounded, Nat.min_eq_right (by omega), List.take_length]

/-- The file "ab" gains an "x" before every poll; followed from offset 2 with a
one-character chunk, three polls print "xxx". -/
theorem tailFollow_emits_appended_of_growing :
    (tailFollow ⟨1, Nat.one_pos⟩ 2
      (fun index => staticFile (ε := String) ("ab".toList ++ List.replicate (index + 1) 'x') index)
      (.ok ()) 3).output = "xxx".toList := by
  obtain ⟨growing, exact⟩ := tailFollow_emits_appended ⟨1, Nat.one_pos⟩
    (fun index => "ab".toList ++ List.replicate index 'x') 2 3
    (fun _ _ => ⟨['x'], by simp [List.replicate_succ']⟩) (by decide) rfl
  have answers : AnsweredWith ⟨1, Nat.one_pos⟩
      (fun index => staticFile (ε := String) ("ab".toList ++ List.replicate (index + 1) 'x') index)
      (tailFollow ⟨1, Nat.one_pos⟩ 2
        (fun index => staticFile ("ab".toList ++ List.replicate (index + 1) 'x') index) (.ok ()) 3)
      (exactAnswer ⟨1, Nat.one_pos⟩ fun index => "ab".toList ++ List.replicate index 'x') :=
    fun _ _ _ => ⟨_, rfl, by unfold exactAnswer; rfl⟩
  have polled := (exact _ answers).1
  obtain ⟨cursor, returns, -, -, output⟩ := (growing _ answers.growing).1 3 le_rfl
  rw [polled 2 (by decide) _ (polled 1 (by decide) _ (polled 0 (by decide) 2 rfl))] at returns
  cases returns
  exact output.trans (by decide)

/-! ## Whatever the agent returns -/

theorem followPass_output (chunk : ChunkSize) (readFn : Reader ε) (sleep : Except ε Unit)
    (index offset : Nat) :
    (followPass chunk readFn sleep index offset).output =
      answerData (readFn index ⟨some offset, some chunk.size⟩) := by
  cases answers : readFn index ⟨some offset, some chunk.size⟩ with
  | error error => simp [followPass, answers, Run.printed, answerData]
  | ok resp => rw [Run.output_eq, (followPass_of_ok answers).2]; rfl

theorem followPass_next {chunk : ChunkSize} {readFn : Reader ε} {sleep : Except ε Unit}
    {index offset next : Nat}
    (passReturns : (followPass chunk readFn sleep index offset).outcome = .ok next) :
    next = offset + (answerData (readFn index ⟨some offset, some chunk.size⟩)).length := by
  cases answers : readFn index ⟨some offset, some chunk.size⟩ with
  | error error => simp [followPass, answers] at passReturns
  | ok resp =>
      rw [(followPass_of_ok answers).1] at passReturns
      cases sleep <;> cases passReturns
      rfl

section AnyAgent

variable {chunk : ChunkSize} {fileSize : Nat} {readFn : Reader ε} {sleep : Except ε Unit}

theorem tailFollow_issued {polls i : Nat} {params : ReadParams}
    (found : (tailFollow chunk fileSize readFn sleep polls).reads[i]? = some params) :
    i < polls ∧ ∃ cursor, (tailFollow chunk fileSize readFn sleep i).outcome = .ok cursor := by
  induction polls with
  | zero => cases found
  | succ polls induction =>
      cases returns : (tailFollow chunk fileSize readFn sleep polls).outcome with
      | error error =>
          rw [tailFollow, Run.andThen_of_error returns] at found
          exact (induction found).imp_left Nat.lt_succ_of_lt
      | ok cursor =>
          have length := tailFollow_reads_length returns
          rw [tailFollow_reads_succ returns] at found
          by_cases earlier : i < polls
          · rw [List.getElem?_append_left (by omega)] at found
            exact (induction found).imp_left Nat.lt_succ_of_lt
          · rw [List.getElem?_append_right (by omega), length] at found
            obtain rfl : i = polls := by
              by_contra later
              rw [List.getElem?_eq_none (by rw [List.length_singleton]; omega)] at found
              cases found
            exact ⟨Nat.lt_succ_self i, cursor, returns⟩

/-- Whatever the agent returns, the follower has printed exactly what its reads
returned, and its offset is its start plus all it printed. -/
theorem tailFollow_output_received (polls : Nat) :
    (tailFollow chunk fileSize readFn sleep polls).output =
        (dataReceived readFn (tailFollow chunk fileSize readFn sleep polls).reads).flatten ∧
      ∀ cursor, (tailFollow chunk fileSize readFn sleep polls).outcome = .ok cursor →
        cursor = fileSize + (tailFollow chunk fileSize readFn sleep polls).output.length := by
  induction polls with
  | zero => exact ⟨rfl, fun cursor returns => by cases returns; rfl⟩
  | succ polls induction =>
      obtain ⟨output, offset⟩ := induction
      cases returns : (tailFollow chunk fileSize readFn sleep polls).outcome with
      | error error =>
          rw [tailFollow, Run.andThen_of_error returns]
          exact ⟨output, fun _ raised => by cases raised⟩
      | ok cursor =>
          have length := tailFollow_reads_length returns
          have passOutput := followPass_output chunk readFn sleep polls cursor
          refine ⟨?_, fun next passReturns => ?_⟩
          · rw [tailFollow_reads_succ returns, dataReceived_append, length, tailFollow,
              Run.output_andThen_of_ok returns, output, passOutput, List.flatten_append]
            simp [Reader.drop]
          · rw [tailFollow, Run.outcome_andThen_of_ok returns] at passReturns
            rw [followPass_next passReturns, tailFollow, Run.output_andThen_of_ok returns,
              List.length_append, passOutput, offset cursor returns, Nat.add_assoc]

end AnyAgent

/-- Whatever the agent returns, after `polls` polls `tail_follow` has printed
exactly the data its reads returned, in the order it read them, and each read
asks for a chunk right after everything printed before it, counting from the
offset it started at: it never asks again for a byte it has printed, and never
skips one. -/
theorem tailFollow_prints_received (chunk : ChunkSize) (fileSize : Nat) (readFn : Reader ε)
    (sleep : Except ε Unit) (polls : Nat) :
    let run := tailFollow chunk fileSize readFn sleep polls
    run.output = (dataReceived readFn run.reads).flatten ∧
      (∀ cursor, run.outcome = .ok cursor → cursor = fileSize + run.output.length) ∧
      ∀ (i : Nat) (params : ReadParams), run.reads[i]? = some params →
        params = ⟨some (fileSize + (tailFollow chunk fileSize readFn sleep i).output.length),
          some chunk.size⟩ := by
  refine ⟨(tailFollow_output_received polls).1, (tailFollow_output_received polls).2,
    fun i params found => ?_⟩
  obtain ⟨below, cursor, returns⟩ := tailFollow_issued found
  rw [tailFollow_read_at below returns, Option.some.injEq] at found
  rw [← found, ← (tailFollow_output_received i).2 cursor returns]

end CookTail
