import CookTail.Foundation.Lines

/-! # Reading from the agent

`read_file`, the readers that `tail_for_instance` builds from it, and the record
of what a command does: the reads it issues and the texts it prints, in order,
and whether it returned or raised.
-/

namespace CookTail

/-- The optional `offset` and `length` of a `files/read` request. -/
structure ReadParams where
  offset : Option Nat
  length : Option Nat
  deriving DecidableEq, Repr

/-- The JSON body of a successful read. A read without an offset reports the
size of the file in `offset`. -/
structure ReadResponse where
  data : Text
  offset : Nat
  deriving DecidableEq, Repr

/-- The request `read_file` sends to the agent's `files/read` endpoint. -/
structure AgentRequest where
  path : String
  offset : Option Nat
  length : Option Nat
  deriving DecidableEq, Repr

/-- The agent's HTTP answer: its status, and its body read as JSON by
`resp.json()`, which raises when the body is not JSON. A body without `data` or
`offset`, on which the caller's lookup raises, is an error here too. -/
structure HttpResponse where
  statusCode : Nat
  json : Except String ReadResponse
  deriving Repr

/-- `os.path.join(directory, name)` on POSIX: an absolute name replaces the
directory, and a separator is added only where one is missing. -/
def osPathJoin (directory name : String) : String :=
  if name.startsWith "/" then name
  else if directory.isEmpty || directory.endsWith "/" then directory ++ name
  else directory ++ "/" ++ name

/-- The message of the exception `read_file` raises on a 404. -/
def notFoundMessage (path : String) : String :=
  "Cannot open \x27" ++ path ++ "\x27 for reading (file was not found)."

/-- The message of the exception `read_file` raises on any other status but 200. -/
def agentErrorMessage : String :=
  "Encountered error when reading file from Mesos agent."

/-- `read_file`: `agent` is the agent's answer to the request. The log lines it
writes are not part of the model. -/
def readFile (agent : AgentRequest → HttpResponse) (sandboxDir path : String)
    (offset length : Option Nat) : Except String ReadResponse :=
  let resp := agent ⟨osPathJoin sandboxDir path, offset, length⟩
  if resp.statusCode = 404 then .error (notFoundMessage path)
  else if resp.statusCode ≠ 200 then .error agentErrorMessage
  else resp.json

/-- The answers a command gets to its reads: its `index`-th read (counting from
zero) with parameters `params` gets `reader index params`. The file may grow
between two reads, so an answer may depend on when the read is made. -/
abbrev Reader (ε : Type) := Nat → ReadParams → Except ε ReadResponse

/-- The answers to the reads after the first `count`. -/
def Reader.drop (reader : Reader ε) (count : Nat) : Reader ε :=
  fun index => reader (index + count)

/-- `partial(read_file, instance=instance, sandbox_dir=sandbox_dir, path=path)`:
`agent index` is how the agent answers the `index`-th request. -/
def readerOf (agent : Nat → AgentRequest → HttpResponse) (sandboxDir path : String) :
    Reader String :=
  fun index params => readFile (agent index) sandboxDir path params.offset params.length

/-- `file[offset:offset + length]`. -/
def readData (file : Text) (offset length : Nat) : Text :=
  (file.drop offset).take length

theorem readData_of_grown {file later : Text} (grows : file <+: later) {offset length : Nat}
    (inside : offset + length ≤ file.length) :
    readData later offset length = readData file offset length := by
  obtain ⟨rest, rfl⟩ := grows
  rw [readData, readData, List.drop_append_of_le_length (by omega),
    List.take_append_of_le_length (by rw [List.length_drop]; omega)]

/-- Every read at an offset and a length returns `file[offset:offset + length]`. -/
def ReadsFaithfully (reader : Reader ε) (file : Text) : Prop :=
  ∀ index offset length, ∃ response,
    reader index ⟨some offset, some length⟩ = .ok response ∧
      response.data = readData file offset length

theorem ReadsFaithfully.drop {reader : Reader ε} {file : Text}
    (faithful : ReadsFaithfully reader file) (count : Nat) :
    ReadsFaithfully (reader.drop count) file :=
  fun index => faithful (index + count)

/-- An agent serving `file`, which does not change: a read without an offset
reports its size. -/
def staticFile (file : Text) : Reader ε := fun _ params =>
  match params.offset, params.length with
  | some offset, some length => .ok ⟨readData file offset length, offset⟩
  | _, _ => .ok ⟨[], file.length⟩

theorem staticFile_readsFaithfully (file : Text) :
    ReadsFaithfully (staticFile (ε := ε) file) file :=
  fun _ _ _ => ⟨_, rfl, rfl⟩

@[simp] theorem Reader.drop_zero (reader : Reader ε) : reader.drop 0 = reader := rfl

theorem Reader.drop_drop (reader : Reader ε) (first second : Nat) :
    (reader.drop first).drop second = reader.drop (second + first) := by
  funext index
  simp only [Reader.drop, Nat.add_assoc]

/-- The data an answer carries: a read that raised got none. -/
def answerData : Except ε ReadResponse → Text
  | .ok resp => resp.data
  | .error _ => []

/-- What the reads `reads`, made in this order, got from `readFn`. -/
def dataReceived (readFn : Reader ε) : List ReadParams → List Text
  | [] => []
  | params :: rest => answerData (readFn 0 params) :: dataReceived (readFn.drop 1) rest

@[simp] theorem dataReceived_nil (readFn : Reader ε) : dataReceived readFn [] = [] := rfl

@[simp] theorem dataReceived_cons (readFn : Reader ε) (params : ReadParams)
    (rest : List ReadParams) :
    dataReceived readFn (params :: rest) =
      answerData (readFn 0 params) :: dataReceived (readFn.drop 1) rest := rfl

theorem dataReceived_append (readFn : Reader ε) (earlier later : List ReadParams) :
    dataReceived readFn (earlier ++ later) =
      dataReceived readFn earlier ++ dataReceived (readFn.drop earlier.length) later := by
  induction earlier generalizing readFn with
  | nil => rfl
  | cons params earlier induction =>
      rw [List.cons_append, dataReceived_cons, induction, Reader.drop_drop, dataReceived_cons,
        List.cons_append, List.length_cons]

/-- What the reads `reads` got, put together in the order of the file when each
read is further back than the one before: the last read first. -/
def receivedBackwards (readFn : Reader ε) (reads : List ReadParams) : Text :=
  (dataReceived readFn reads).reverse.flatten

@[simp] theorem receivedBackwards_nil (readFn : Reader ε) : receivedBackwards readFn [] = [] :=
  rfl

@[simp] theorem receivedBackwards_cons (readFn : Reader ε) (params : ReadParams)
    (rest : List ReadParams) :
    receivedBackwards readFn (params :: rest) =
      receivedBackwards (readFn.drop 1) rest ++ answerData (readFn 0 params) := by
  simp [receivedBackwards]

/-! ## Runs -/

/-- One thing a command does that can be seen from outside: a read request to the
agent, or a text written to the output with `__print`. -/
inductive Event where
  | read (params : ReadParams)
  | print (text : Text)
  deriving DecidableEq, Repr

@[simp] def Event.request : Event → Option ReadParams
  | .read params => some params
  | .print _ => none

@[simp] def Event.written : Event → Option Text
  | .print text => some text
  | .read _ => none

/-- What a command did before it returned or raised. -/
structure Run (ε α : Type) where
  events : List Event
  outcome : Except ε α

namespace Run

/-- The reads the run issued, in order. -/
def reads (run : Run ε α) : List ReadParams := run.events.filterMap Event.request

/-- The texts the run printed, in order. -/
def printed (run : Run ε α) : List Text := run.events.filterMap Event.written

/-- Everything the run wrote to the output, concatenated. -/
def output (run : Run ε α) : Text := run.printed.flatten

/-- The run that issues a read with `params` and then does what `run` does. -/
def afterRead (params : ReadParams) (run : Run ε α) : Run ε α :=
  ⟨.read params :: run.events, run.outcome⟩

@[simp] theorem events_afterRead (params : ReadParams) (run : Run ε α) :
    (run.afterRead params).events = .read params :: run.events := rfl

@[simp] theorem reads_afterRead (params : ReadParams) (run : Run ε α) :
    (run.afterRead params).reads = params :: run.reads := rfl

@[simp] theorem printed_afterRead (params : ReadParams) (run : Run ε α) :
    (run.afterRead params).printed = run.printed := rfl

@[simp] theorem outcome_afterRead (params : ReadParams) (run : Run ε α) :
    (run.afterRead params).outcome = run.outcome := rfl

theorem output_afterRead (params : ReadParams) (run : Run ε α) :
    (run.afterRead params).output = run.output := rfl

@[simp] theorem output_eq (run : Run ε α) : run.output = run.printed.flatten := rfl

/-- The run that does nothing and returns `value`. -/
def pure (value : α) : Run ε α := ⟨[], .ok value⟩

@[simp] theorem events_pure (value : α) : (pure value : Run ε α).events = [] := rfl

/-- The run that does what `run` does and, if it returns `value`, goes on with
`next value`. -/
def andThen (run : Run ε α) (next : α → Run ε β) : Run ε β :=
  match run.outcome with
  | .error error => ⟨run.events, .error error⟩
  | .ok value => ⟨run.events ++ (next value).events, (next value).outcome⟩

section AndThen

variable {run : Run ε α} {value : α} (returns : run.outcome = .ok value) (next : α → Run ε β)
include returns

theorem events_andThen_of_ok :
    (run.andThen next).events = run.events ++ (next value).events := by
  simp [andThen, returns]

theorem outcome_andThen_of_ok : (run.andThen next).outcome = (next value).outcome := by
  simp [andThen, returns]

theorem reads_andThen_of_ok : (run.andThen next).reads = run.reads ++ (next value).reads := by
  simp [reads, events_andThen_of_ok returns]

theorem printed_andThen_of_ok :
    (run.andThen next).printed = run.printed ++ (next value).printed := by
  simp [printed, events_andThen_of_ok returns]

theorem output_andThen_of_ok :
    (run.andThen next).output = run.output ++ (next value).output := by
  simp [printed_andThen_of_ok returns]

end AndThen

theorem andThen_of_error {run : Run ε α} {error : ε} (raises : run.outcome = .error error)
    (next : α → Run ε β) : run.andThen next = ⟨run.events, .error error⟩ := by
  simp [andThen, raises]

theorem events_prefix_andThen (run : Run ε α) (next : α → Run ε β) :
    run.events <+: (run.andThen next).events := by
  unfold andThen
  split
  · exact List.prefix_refl _
  · exact List.prefix_append _ _

theorem exists_of_andThen_eq_ok {run : Run ε α} {next : α → Run ε β} {result : β}
    (returns : (run.andThen next).outcome = .ok result) :
    ∃ value, run.outcome = .ok value ∧ (next value).outcome = .ok result := by
  unfold andThen at returns
  split at returns
  · cases returns
  · next value found => exact ⟨value, found, returns⟩

@[simp] theorem reads_read_print (params : ReadParams) (printed : List Text)
    (outcome : Except ε α) :
    (⟨.read params :: printed.map .print, outcome⟩ : Run ε α).reads = [params] := by
  simp [reads, List.filterMap_map, Function.comp_def]

@[simp] theorem printed_read_print (params : ReadParams) (printed : List Text)
    (outcome : Except ε α) :
    (⟨.read params :: printed.map .print, outcome⟩ : Run ε α).printed = printed := by
  simp [Run.printed, List.filterMap_map, Function.comp_def]

end Run

/-- Every read the run issued, its `index`-th with an offset and a length, got
`file[offset:offset + length]` from `readFn`. -/
def AnsweredFaithfully (readFn : Reader ε) (run : Run ε α) (file : Text) : Prop :=
  ∀ index offset length, run.reads[index]? = some ⟨some offset, some length⟩ →
    ∃ response, readFn index ⟨some offset, some length⟩ = .ok response ∧
      response.data = readData file offset length

/-- Every read the run issued with an offset and a length either raised or got
`file[offset:offset + length]`. -/
def AnsweredFaithfullyOrRaised (readFn : Reader ε) (run : Run ε α) (file : Text) : Prop :=
  ∀ index offset length response, run.reads[index]? = some ⟨some offset, some length⟩ →
    readFn index ⟨some offset, some length⟩ = .ok response →
      response.data = readData file offset length

/-- The run raises only at its last read: with the exception that read raised,
or, after it returned, with one that `raisedAfter` allows. -/
def RaisesAtLastRead (readFn : Reader ε) (raisedAfter : ε → Prop) (run : Run ε α) : Prop :=
  ∀ error, run.outcome = .error error →
    ∃ params, run.reads.getLast? = some params ∧
      (readFn (run.reads.length - 1) params = .error error ∨
        (∃ resp, readFn (run.reads.length - 1) params = .ok resp) ∧ raisedAfter error)

namespace RaisesAtLastRead

variable {readFn : Reader ε} {raisedAfter : ε → Prop}

theorem afterRead {run : Run ε α} {params : ReadParams}
    (raisesLast : RaisesAtLastRead (readFn.drop 1) raisedAfter run) :
    RaisesAtLastRead readFn raisedAfter (run.afterRead params) := fun error raised => by
  obtain ⟨last, found, answer⟩ := raisesLast error raised
  have issued : 0 < run.reads.length :=
    List.length_pos.mpr fun empty => by simp [empty] at found
  refine ⟨last, by simp [List.getLast?_cons, found], ?_⟩
  rwa [Run.reads_afterRead, List.length_cons, Nat.add_sub_cancel, ← Nat.sub_add_cancel issued]

theorem andThen {run : Run ε α} {next : α → Run ε β}
    (first : RaisesAtLastRead readFn raisedAfter run)
    (second : ∀ value, run.outcome = .ok value →
      RaisesAtLastRead (readFn.drop run.reads.length) raisedAfter (next value)) :
    RaisesAtLastRead readFn raisedAfter (run.andThen next) := fun error raised => by
  cases returns : run.outcome with
  | error error' =>
      rw [Run.andThen_of_error returns] at raised ⊢
      exact Except.error.inj raised ▸ first error' returns
  | ok value =>
      rw [Run.outcome_andThen_of_ok returns] at raised
      obtain ⟨last, found, answer⟩ := second value returns error raised
      have issued : (next value).reads ≠ [] := fun empty => by simp [empty] at found
      refine ⟨last, ?_, ?_⟩
      · rw [Run.reads_andThen_of_ok returns, List.getLast?_append_of_ne_nil _ issued, found]
      · rw [Run.reads_andThen_of_ok returns, List.length_append,
          Nat.add_sub_assoc (List.length_pos.mpr issued), Nat.add_comm]
        exact answer

end RaisesAtLastRead

theorem ReadsFaithfully.answered {readFn : Reader ε} {file : Text}
    (faithful : ReadsFaithfully readFn file) (run : Run ε α) :
    AnsweredFaithfully readFn run file :=
  fun index offset length _ => faithful index offset length

theorem AnsweredFaithfully.orRaised {readFn : Reader ε} {run : Run ε α} {file : Text}
    (faithful : AnsweredFaithfully readFn run file) : AnsweredFaithfullyOrRaised readFn run file :=
  fun index offset length _ found answers => by
    obtain ⟨response, answers', data⟩ := faithful index offset length found
    cases answers.symm.trans answers'
    exact data

theorem AnsweredFaithfully.dataReceived {readFn : Reader ε} {run : Run ε α} {file : Text}
    (faithful : AnsweredFaithfully readFn run file)
    (windows : ∀ params ∈ run.reads, ∃ offset length, params = ⟨some offset, some length⟩) :
    dataReceived readFn run.reads =
      run.reads.map fun params => readData file (params.offset.getD 0) (params.length.getD 0) := by
  unfold AnsweredFaithfully at faithful
  generalize run.reads = reads at faithful windows ⊢
  induction reads generalizing readFn with
  | nil => rfl
  | cons params reads induction =>
      obtain ⟨offset, length, rfl⟩ := windows _ (List.mem_cons_self _ _)
      obtain ⟨response, answers, data⟩ := faithful 0 offset length List.getElem?_cons_zero
      rw [dataReceived_cons, answers, answerData, data, List.map_cons,
        @induction (readFn.drop 1) (fun index offset length found =>
            faithful (index + 1) offset length (List.getElem?_cons_succ.trans found))
          (fun params member => windows params (List.mem_cons_of_mem _ member))]
      rfl

theorem AnsweredFaithfully.afterRead {readFn : Reader ε} {run : Run ε α} {file : Text}
    {params : ReadParams} (faithful : AnsweredFaithfully readFn (run.afterRead params) file) :
    AnsweredFaithfully (readFn.drop 1) run file :=
  fun index offset length found =>
    faithful (index + 1) offset length (by rw [Run.reads_afterRead, List.getElem?_cons_succ, found])

theorem AnsweredFaithfullyOrRaised.afterRead {readFn : Reader ε} {run : Run ε α} {file : Text}
    {params : ReadParams}
    (faithful : AnsweredFaithfullyOrRaised readFn (run.afterRead params) file) :
    AnsweredFaithfullyOrRaised (readFn.drop 1) run file :=
  fun index offset length response found =>
    faithful (index + 1) offset length response
      (by rw [Run.reads_afterRead, List.getElem?_cons_succ, found])

end CookTail
