import CookTail.Backwards.Failure
import CookTail.Follow.TailFollow

/-! # The tail command

`tail_for_instance` asks the agent for the file's size with a read of neither
offset nor length, walks back from that size with `tail_backwards` and, with
`--follow`, follows the file from it. `tail` checks its uuid and path before it
runs `tail_for_instance` on them.
-/

namespace CookTail

/-- The read `read()` of `tail_for_instance`: neither offset nor length, which
the agent answers with the file's size as the offset. -/
def sizeParams : ReadParams := ⟨none, none⟩

/-- `tail_for_instance(instance, sandbox_dir, path, num_lines_to_print, follow,
follow_sleep_seconds)` on `read`, the reader of the instance's file, where
sleeping on `follow_sleep_seconds` does what `sleep` says, with its follower
stopped after `polls` passes. The follower's reads come after those of the walk
back, so it sees `read` past them. -/
def tailForInstance (chunk : ChunkSize) (read : Reader ε) (numLinesToPrint : Nat)
    (follow : Bool) (sleep : Except ε Unit) (polls : Nat) : Run ε Unit :=
  match read 0 sizeParams with
  | .error error => ⟨[.read sizeParams], .error error⟩
  | .ok resp =>
      let fileSize := resp.offset
      let backwards := tailBackwards chunk fileSize (read.drop 1) numLinesToPrint
      let following : Run ε Unit :=
        if follow then
          (tailFollow chunk fileSize (read.drop (1 + backwards.reads.length)) sleep
            polls).andThen fun _ => Run.pure ()
        else Run.pure ()
      (backwards.andThen fun _ => following).afterRead sizeParams

section ForInstance

variable {chunk : ChunkSize} {read : Reader ε} {numLinesToPrint : Nat} {follow : Bool}
  {sleep : Except ε Unit} {polls : Nat}

theorem tailForInstance_of_size {resp : ReadResponse} (sized : read 0 sizeParams = .ok resp) :
    tailForInstance chunk read numLinesToPrint follow sleep polls =
      ((tailBackwards chunk resp.offset (read.drop 1) numLinesToPrint).andThen fun _ =>
        if follow then
          (tailFollow chunk resp.offset (read.drop (1 +
            (tailBackwards chunk resp.offset (read.drop 1) numLinesToPrint).reads.length))
            sleep polls).andThen fun _ => Run.pure ()
        else Run.pure ()).afterRead sizeParams := by
  rw [tailForInstance, sized]

theorem tailForInstance_of_error {error : ε} (raises : read 0 sizeParams = .error error) :
    (tailForInstance chunk read numLinesToPrint follow sleep polls).outcome = .error error ∧
      (tailForInstance chunk read numLinesToPrint follow sleep polls).printed = [] := by
  rw [tailForInstance, raises]
  exact ⟨rfl, rfl⟩

theorem tailForInstance_of_backwards_raises {resp : ReadResponse}
    (sized : read 0 sizeParams = .ok resp) {index : Nat} {params : ReadParams} {error : ε}
    (issued : (tailBackwards chunk resp.offset (read.drop 1) numLinesToPrint).reads[index]? =
      some params)
    (raises : read (index + 1) params = .error error) :
    (tailForInstance chunk read numLinesToPrint follow sleep polls).outcome = .error error ∧
      (tailForInstance chunk read numLinesToPrint follow sleep polls).printed = [] ∧
      (tailForInstance chunk read numLinesToPrint follow sleep polls).reads =
        sizeParams :: (tailBackwards chunk resp.offset (read.drop 1) numLinesToPrint).reads := by
  have backwardsRaises :
      (tailBackwards chunk resp.offset (read.drop 1) numLinesToPrint).outcome = .error error :=
    (tailBackwardsLoop_of_raises issued raises).1
  rw [tailForInstance_of_size sized, Run.andThen_of_error backwardsRaises]
  exact ⟨rfl, (tailBackwardsLoop_of_raises issued raises).2, rfl⟩

end ForInstance

/-- What `tail` raises when given more than one uuid. -/
def singleUuidMessage : String := "You can only provide a single uuid."

/-- What `tail` raises when given more than one path. -/
def singlePathMessage : String := "You can only provide a single path."

/-- What Python raises on `items[0]` of an empty list. -/
def indexErrorMessage : String := "list index out of range"

/-- The checks `tail(clusters, args)` makes on its uuids and paths (after
`strip_all`), and the uuid and path it then runs `tail_for_instance` with:
`paths[0]` and `uuids[0]`. -/
def tail (uuids paths : List String) : Except String (String × String) :=
  if 1 < uuids.length then .error singleUuidMessage
  else if 1 < paths.length then .error singlePathMessage
  else
    match paths.head?, uuids.head? with
    | some path, some uuid => .ok (uuid, path)
    | _, _ => .error indexErrorMessage

/-- `tail` goes on exactly when it has one uuid and one path. -/
theorem tail_eq_ok_iff (uuids paths : List String) (uuid path : String) :
    tail uuids paths = .ok (uuid, path) ↔ uuids = [uuid] ∧ paths = [path] := by
  rcases uuids with _ | ⟨_, _ | ⟨_, _⟩⟩ <;> rcases paths with _ | ⟨_, _ | ⟨_, _⟩⟩ <;>
    simp [tail]

/-- Every error of `tail` names the check that failed: too many uuids is
reported first, then too many paths, then a missing one. -/
theorem tail_eq_error_iff (uuids paths : List String) (message : String) :
    tail uuids paths = .error message ↔
      (1 < uuids.length ∧ message = singleUuidMessage) ∨
      (uuids.length ≤ 1 ∧ 1 < paths.length ∧ message = singlePathMessage) ∨
      (uuids.length ≤ 1 ∧ paths.length ≤ 1 ∧ (uuids = [] ∨ paths = []) ∧
        message = indexErrorMessage) := by
  rcases uuids with _ | ⟨_, _ | ⟨_, _⟩⟩ <;> rcases paths with _ | ⟨_, _ | ⟨_, _⟩⟩ <;>
    simp [tail, eq_comm]

end CookTail
