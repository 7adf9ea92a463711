import SearchConfig.Proofs.PlainText

/-!
# What a printed line leaves of a text

A printed line loses the control sequences of its text and nothing else: neither what stands in
front of the first escape character nor the end of the line belongs to one (`Outcome.echo_append`).
-/

namespace SearchConfig

namespace Text

theorem takeWhile_newline {p : CodePoint → Bool} (h : p (.scalar '\n') = false) (t : Text) :
    (t ++ "\n").takeWhile p = t.takeWhile p := by
  have hline : ("\n" : Text) = [.scalar '\n'] := rfl
  induction t with
  | nil => rw [List.nil_append, hline, List.takeWhile_cons, h, if_neg Bool.false_ne_true]; rfl
  | cons c t ih =>
    rw [List.cons_append, List.takeWhile_cons, List.takeWhile_cons, ih]

/-- The length of a control sequence by what follows its opening. -/
def lengthBehindOpening (rest : Text) : Nat :=
  let parameters := rest.takeWhile CodePoint.isParameter
  let intermediates := (rest.drop parameters.length).takeWhile CodePoint.isIntermediate
  match rest.drop (parameters.length + intermediates.length) with
  | c :: _ => if c.isFinal then parameters.length + intermediates.length + 3 else 0
  | [] => 0

theorem lengthBehindOpening_newline (rest : Text) :
    lengthBehindOpening (rest ++ "\n") = lengthBehindOpening rest := by
  have hparameters := takeWhile_newline (p := CodePoint.isParameter) rfl rest
  have hbehind : ∀ n ≤ rest.length, (rest ++ "\n").drop n = rest.drop n ++ "\n" := fun n hn =>
    List.drop_append_of_le_length hn
  have hfirst : (rest.takeWhile CodePoint.isParameter).length ≤ rest.length :=
    (List.takeWhile_sublist _).length_le
  have hsecond : (rest.takeWhile CodePoint.isParameter).length
      + ((rest.drop (rest.takeWhile CodePoint.isParameter).length).takeWhile
        CodePoint.isIntermediate).length ≤ rest.length := by
    have := (List.takeWhile_sublist CodePoint.isIntermediate
      (l := rest.drop (rest.takeWhile CodePoint.isParameter).length)).length_le
    rw [List.length_drop] at this
    omega
  simp only [lengthBehindOpening, hparameters, hbehind _ hfirst,
    takeWhile_newline (p := CodePoint.isIntermediate) rfl, hbehind _ hsecond]
  rcases rest.drop _ with _ | ⟨c, others⟩ <;> rfl

theorem lengthBehindOpening_le (rest : Text) : lengthBehindOpening rest ≤ rest.length + 2 := by
  simp only [lengthBehindOpening]
  split
  · rename_i c others hothers
    have hlength := congrArg List.length hothers
    rw [List.length_drop, List.length_cons] at hlength
    split_ifs <;> omega
  · exact Nat.zero_le _

theorem opening_eq : ("\x1b[" : Text) = [.scalar '\x1b', .scalar '['] := rfl

theorem sequenceLength_opening (rest : Text) :
    sequenceLength (.scalar '\x1b' :: .scalar '[' :: rest) = lengthBehindOpening rest := by
  have hrest : dropBeginning? (.scalar '\x1b' :: .scalar '[' :: rest) "\x1b[" = some rest := by
    simp only [opening_eq, dropBeginning?, if_true]
  rw [sequenceLength, hrest]
  rfl

theorem sequenceLength_of_no_opening {t : Text}
    (h : ∀ rest, t ≠ .scalar '\x1b' :: .scalar '[' :: rest) : sequenceLength t = 0 := by
  have hnone : dropBeginning? t "\x1b[" = none := by
    rw [opening_eq]
    rcases t with _ | ⟨c, _ | ⟨d, t⟩⟩ <;> simp only [dropBeginning?]
    · split_ifs <;> rfl
    · split_ifs with hc hd
      · exact absurd (by rw [hc, hd]) (h t)
      · rfl
      · rfl
  rw [sequenceLength, hnone]

/-- No text is shorter than the control sequence in it, and the end of a line belongs to none. -/
theorem sequenceLength_newline (t : Text) :
    sequenceLength (t ++ "\n") = sequenceLength t ∧ sequenceLength t ≤ t.length := by
  by_cases h : ∃ rest, t = .scalar '\x1b' :: .scalar '[' :: rest
  · obtain ⟨rest, rfl⟩ := h
    rw [List.cons_append, List.cons_append, sequenceLength_opening, sequenceLength_opening]
    exact ⟨lengthBehindOpening_newline rest, lengthBehindOpening_le rest⟩
  · have hnone : ∀ rest : Text, t ++ "\n" ≠ .scalar '\x1b' :: .scalar '[' :: rest := by
      rintro rest heq
      rcases t with _ | ⟨c, _ | ⟨d, t⟩⟩
      · exact absurd (List.cons.inj heq).1 (by decide)
      · exact absurd (List.cons.inj (List.cons.inj heq).2).1 (by decide)
      · obtain ⟨hc, hothers⟩ := List.cons.inj heq
        exact h ⟨t, by rw [hc, (List.cons.inj hothers).1]⟩
    rw [sequenceLength_of_no_opening hnone, sequenceLength_of_no_opening (not_exists.1 h)]
    exact ⟨rfl, Nat.zero_le _⟩

theorem withoutSequencesFrom_newline : ∀ {t : Text} {skip : Nat}, skip ≤ t.length →
    withoutSequencesFrom skip (t ++ "\n") = withoutSequencesFrom skip t ++ "\n"
  | [], 0, _ => rfl
  | c :: t, skip, h => by
    obtain ⟨hnewline, hle⟩ := sequenceLength_newline (c :: t)
    rw [List.cons_append] at hnewline
    rw [List.cons_append, withoutSequencesFrom.eq_def, withoutSequencesFrom.eq_def skip (c :: t)]
    simp only [hnewline]
    rcases skip with _ | skip
    · rcases hlength : sequenceLength (c :: t) with _ | n
      · rw [hlength] at hle
        simp only [withoutSequencesFrom_newline (Nat.zero_le t.length), List.cons_append]
      · rw [hlength, List.length_cons] at hle
        exact withoutSequencesFrom_newline (Nat.le_of_succ_le_succ hle)
    · exact withoutSequencesFrom_newline (Nat.le_of_succ_le_succ h)

theorem withoutSequences_append {s : Text} (h : .scalar '\x1b' ∉ s) (t : Text) :
    (s ++ t).withoutSequences = s ++ t.withoutSequences := by
  rw [withoutSequences]
  induction s with
  | nil => rfl
  | cons c s ih =>
    rw [List.mem_cons, not_or] at h
    have hlength : sequenceLength (c :: (s ++ t)) = 0 := sequenceLength_of_ne (Ne.symm h.1) _
    rw [List.cons_append, withoutSequencesFrom.eq_def]
    simp only [hlength]
    rw [ih h.2, List.cons_append]

end Text

/-- A line is printed without the control sequences of its text. -/
theorem Outcome.echo_append {s : Text} (h : .scalar '\x1b' ∉ s) (t : Text) :
    echo (s ++ t) = s ++ t.withoutSequences ++ "\n" := by
  rw [echo, List.append_assoc, Text.withoutSequences_append h, List.append_assoc]
  exact congrArg (s ++ ·) (Text.withoutSequencesFrom_newline (Nat.zero_le t.length))

end SearchConfig
