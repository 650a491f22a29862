import CookTail.Backwards.Walk

/-! # The last lines of a file

What `tail -n` is for, said without splitting the file: it prints the suffix
of the file that starts at the start of a line and holds as many delimiters as
the lines asked for need, or all the file has. Exactly one text is that suffix,
and under faithful reads `tail_backwards` prints it.
-/

namespace CookTail

/-- `output` is the last lines of `file`: a suffix of it that starts at the
start of a line and holds `min(m - 1, d)` of its `d` delimiters, where `m`
counts the empty piece after a final delimiter as one more line. -/
def IsLastLines (file : Text) (numLines : Nat) (output : Text) : Prop :=
  output <:+ file ∧ (output = file ∨ lineDelimiter :: output <:+ file) ∧
    output.count lineDelimiter = min (linesNeeded file numLines - 1) (file.count lineDelimiter)

instance (file : Text) (numLines : Nat) (output : Text) :
    Decidable (IsLastLines file numLines output) :=
  inferInstanceAs (Decidable (_ ∧ _ ∧ _))

example : IsLastLines "a\nb\nc\n".toList 2 "b\nc\n".toList := by decide

/-- For a file with text in it, the lines the walk waits for are the lines it
needs. -/
theorem linesWanted_split {file : Text} (nonempty : file ≠ []) (numLines : Nat) :
    linesWanted (split file) numLines = linesNeeded file numLines := by
  simp [linesWanted, linesNeeded, getLast?_split_eq_nil_iff, nonempty]

theorem tailRef_isLastLines (file : Text) {numLines : Nat} (positive : 0 < numLines) :
    IsLastLines file numLines (tailRef file numLines) := by
  have free (line : Text) (member : line ∈ split file) : lineDelimiter ∉ line :=
    not_mem_of_mem_split member
  have pieces := length_split file
  have atLeast := le_linesWanted (split file) numLines
  rw [tailRef_eq]
  generalize wantedEq : linesWanted (split file) numLines = wanted at atLeast
  by_cases whole : (split file).length ≤ wanted
  · rw [Nat.sub_eq_zero_of_le whole, List.drop_zero, join_split]
    refine ⟨List.suffix_refl _, .inl rfl, ?_⟩
    rcases eq_or_ne file [] with rfl | nonempty
    · simp
    · rw [linesWanted_split nonempty] at wantedEq
      omega
  · have nonempty : file ≠ [] := by
      rintro rfl
      simp only [split_nil, List.length_singleton] at whole
      omega
    rw [linesWanted_split nonempty] at wantedEq
    obtain ⟨last, rest, back⟩ := List.exists_cons_of_ne_nil
      (show (split file).drop ((split file).length - wanted) ≠ [] by
        rw [Ne, List.drop_eq_nil_iff]
        omega)
    have front : (split file).take ((split file).length - wanted) ≠ [] := by
      rw [Ne, List.take_eq_nil_iff, not_or]
      exact ⟨by omega, split_ne_nil file⟩
    have joined := join_append_cons _ front last rest
    rw [← back, List.take_append_drop, join_split] at joined
    have startsLine :
        lineDelimiter :: join ((split file).drop ((split file).length - wanted)) <:+ file :=
      ⟨_, joined.symm⟩
    have count := count_join (fun line member => free line (List.mem_of_mem_drop member))
      (back ▸ List.cons_ne_nil last rest)
    rw [List.length_drop] at count
    exact ⟨(List.suffix_cons _ _).trans startsLine, .inr startsLine, by omega⟩

theorem count_lt_of_isSuffix {file shorter longer : Text}
    (startsLine : shorter = file ∨ lineDelimiter :: shorter <:+ file) (inFile : longer <:+ file)
    (suffix : shorter <:+ longer) (different : shorter ≠ longer) :
    shorter.count lineDelimiter < longer.count lineDelimiter := by
  obtain ⟨front, rfl⟩ := suffix
  cases front with
  | nil => exact absurd rfl different
  | cons character front =>
      rcases startsLine with rfl | startsLine
      · have longerFits := inFile.length_le
        simp only [List.cons_append, List.length_cons, List.length_append] at longerFits
        omega
      · have inside : lineDelimiter :: shorter <:+ character :: front ++ shorter :=
          List.suffix_of_suffix_length_le startsLine inFile (by simp)
        have more := inside.sublist.count_le lineDelimiter
        rw [List.count_cons_self] at more
        omega

theorem linesNeeded_mono (file : Text) {numLines numLines' : Nat} (fewer : numLines ≤ numLines') :
    linesNeeded file numLines ≤ linesNeeded file numLines' := by
  unfold linesNeeded
  split_ifs <;> omega

namespace IsLastLines

variable {file : Text} {numLines : Nat}

/-- Of two last-lines texts, the one that is a suffix of the other is the
other: a longer one would start before a delimiter the shorter one lacks. -/
theorem eq_of_isSuffix {shorter longer : Text} (isLast : IsLastLines file numLines shorter)
    (isLast' : IsLastLines file numLines longer) (suffix : shorter <:+ longer) :
    shorter = longer := by
  by_contra different
  have fewer := count_lt_of_isSuffix isLast.2.1 isLast'.1 suffix different
  have same := isLast.2.2.trans isLast'.2.2.symm
  omega

theorem isSuffix_of_le {numLines' : Nat} {output output' : Text}
    (isLast : IsLastLines file numLines output) (isLast' : IsLastLines file numLines' output')
    (fewer : numLines ≤ numLines') : output <:+ output' := by
  rcases List.suffix_or_suffix_of_suffix isLast.1 isLast'.1 with suffix | suffix
  · exact suffix
  · by_cases same : output' = output
    · exact same ▸ List.suffix_refl _
    · have less := count_lt_of_isSuffix isLast'.2.1 isLast.1 suffix same
      have counted := isLast.2.2
      have counted' := isLast'.2.2
      have needed := linesNeeded_mono file fewer
      omega

theorem eq_self {output : Text} (isLast : IsLastLines file numLines output)
    (few : file.count lineDelimiter < linesNeeded file numLines) : output = file := by
  rcases isLast.2.1 with whole | startsLine
  · exact whole
  · have more := startsLine.sublist.count_le lineDelimiter
    have counted := isLast.2.2
    rw [List.count_cons_self] at more
    omega

theorem getLast?_eq {output : Text} (isLast : IsLastLines file numLines output)
    (positive : 0 < numLines) (endsWith : file.getLast? = some lineDelimiter) :
    output.getLast? = some lineDelimiter := by
  have hasDelimiter := List.count_pos_iff.mpr (List.mem_of_getLast?_eq_some endsWith)
  have counted := isLast.2.2
  rw [linesNeeded, if_pos endsWith] at counted
  have nonempty : output ≠ [] := by
    rintro rfl
    rw [List.count_nil] at counted
    omega
  obtain ⟨front, rfl⟩ := isLast.1
  rwa [List.getLast?_append_of_ne_nil _ nonempty] at endsWith

theorem unique {output other : Text} (isLast : IsLastLines file numLines output)
    (isLast' : IsLastLines file numLines other) : other = output := by
  rcases List.suffix_or_suffix_of_suffix isLast.1 isLast'.1 with suffix | suffix
  · exact (isLast.eq_of_isSuffix isLast' suffix).symm
  · exact isLast'.eq_of_isSuffix isLast suffix

end IsLastLines

theorem isLastLines_output (chunk : ChunkSize) (file : Text) {readFn : Reader ε}
    {numLines : Nat} (positive : 0 < numLines)
    (faithful : AnsweredFaithfully readFn (tailBackwards chunk file.length readFn numLines) file) :
    IsLastLines file numLines (tailBackwards chunk file.length readFn numLines).output := by
  obtain ⟨_, -, -, -, -, output⟩ :=
    tailBackwardsLoop_faithful faithful positive (AtIteration.initial chunk file)
  rw [tailBackwards, output]
  exact tailRef_isLastLines file positive

/-- Under faithful reads `tail_backwards` prints the file's last lines, and no
other text is the file's last lines. -/
theorem tailBackwards_isLastLines (chunk : ChunkSize) (file : Text) {readFn : Reader ε}
    {numLines : Nat} (positive : 0 < numLines)
    (faithful : AnsweredFaithfully readFn (tailBackwards chunk file.length readFn numLines) file) :
    IsLastLines file numLines (tailBackwards chunk file.length readFn numLines).output ∧
      ∀ other, IsLastLines file numLines other →
        other = (tailBackwards chunk file.length readFn numLines).output :=
  have isLast := isLastLines_output chunk file positive faithful
  ⟨isLast, fun _ isLast' => isLast.unique isLast'⟩

theorem tailBackwards_isLastLines_of_three_lines :
    IsLastLines "a\nb\nc".toList 2 (tailBackwards chunkSize "a\nb\nc".toList.length
      (staticFile (ε := String) "a\nb\nc".toList) 2).output :=
  (tailBackwards_isLastLines chunkSize _ (by decide)
    ((staticFile_readsFaithfully _).answered _)).1

/-- Under faithful reads, asking `tail_backwards` for fewer lines prints the
end of what asking for more prints, whatever the chunk sizes of the two walks. -/
theorem tailBackwards_output_mono (chunk chunk' : ChunkSize) (file : Text)
    {readFn readFn' : Reader ε} {numLines numLines' : Nat} (positive : 0 < numLines)
    (fewer : numLines ≤ numLines')
    (faithful : AnsweredFaithfully readFn (tailBackwards chunk file.length readFn numLines) file)
    (faithful' :
      AnsweredFaithfully readFn' (tailBackwards chunk' file.length readFn' numLines') file) :
    (tailBackwards chunk file.length readFn numLines).output <:+
      (tailBackwards chunk' file.length readFn' numLines').output :=
  (isLastLines_output chunk file positive faithful).isSuffix_of_le
    (isLastLines_output chunk' file (Nat.lt_of_lt_of_le positive fewer) faithful') fewer

theorem tailBackwards_output_mono_of_two_chunks :
    (tailBackwards chunkSize "a\nb\nc".toList.length
        (staticFile (ε := String) "a\nb\nc".toList) 1).output <:+
      (tailBackwards ⟨1, Nat.one_pos⟩ "a\nb\nc".toList.length
        (staticFile (ε := String) "a\nb\nc".toList) 2).output :=
  tailBackwards_output_mono chunkSize ⟨1, Nat.one_pos⟩ "a\nb\nc".toList (by decide) (by decide)
    ((staticFile_readsFaithfully _).answered _) ((staticFile_readsFaithfully _).answered _)

end CookTail
