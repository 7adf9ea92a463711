import SearchConfig.CommandLine.Run
import SearchConfig.Proofs.Numerals

/-!
# Text without control characters

Whatever a document says, its JSON text has no control character below the blank, since they are all
escaped (`Document.isPlain_of_print`). Only an escape character begins a control sequence of a
terminal, so such a text is printed as it is (`Outcome.echo_of_isPlain`).
-/

namespace SearchConfig

/-- Has the text no control character below the blank? -/
def Text.IsPlain (t : Text) : Prop := ∀ c ∈ t, 0x20 ≤ c.value

instance (t : Text) : Decidable t.IsPlain := inferInstanceAs (Decidable (∀ c ∈ t, _))

theorem Text.isPlain_append {s t : Text} : IsPlain (s ++ t) ↔ s.IsPlain ∧ t.IsPlain :=
  List.forall_mem_append

theorem Text.isPlain_ofChars_cons {c : Char} {cs : List Char} :
    (ofChars (c :: cs)).IsPlain ↔ 0x20 ≤ c.toNat ∧ (ofChars cs).IsPlain := List.forall_mem_cons

theorem Text.isPlain_ofChars_append {cs cs' : List Char} :
    (ofChars (cs ++ cs')).IsPlain ↔ (ofChars cs).IsPlain ∧ (ofChars cs').IsPlain := by
  rw [ofChars, List.map_append]
  exact isPlain_append

theorem Text.isPlain_ofChars {cs : List Char} :
    (ofChars cs).IsPlain ↔ ∀ c ∈ cs, 0x20 ≤ c.toNat := by
  induction cs with
  | nil => simp [ofChars, IsPlain]
  | cons c cs ih => rw [isPlain_ofChars_cons, ih, List.forall_mem_cons]

namespace Json

open Text

theorem isPlain_hex : ∀ n < 0x20, (ofChars (Digits.hex 4 n)).IsPlain := by decide

theorem isPlain_escape (c : Char) : (ofChars (escape .compact c)).IsPlain := by
  unfold escape
  -- Seven characters have an escape of their own, and the style leaves the ones beyond ASCII alone.
  iterate 7 refine iteInduction (motive := (ofChars · |>.IsPlain)) (fun _ => by decide) fun _ => ?_
  refine iteInduction (motive := (ofChars · |>.IsPlain)) (fun hcontrol => ?_) fun hcontrol => ?_
  · rw [unitEscape, isPlain_ofChars_cons, isPlain_ofChars_cons]
    exact ⟨by decide, by decide, isPlain_hex c.toNat hcontrol⟩
  · exact isPlain_ofChars.2 (List.forall_mem_singleton.2 (Nat.not_lt.1 hcontrol))

theorem isPlain_printString (s : List Char) : (ofChars (printString .compact s)).IsPlain := by
  rw [printString, isPlain_ofChars_cons, isPlain_ofChars_append]
  refine ⟨by decide, isPlain_ofChars.2 fun c hc => ?_, by decide⟩
  obtain ⟨d, -, hd⟩ := List.mem_flatMap.1 hc
  exact isPlain_ofChars.1 (isPlain_escape d) c hd

theorem isPlain_integer (n : Int) : (ofChars (Digits.integer n)).IsPlain := by
  have hnatural : ∀ n : Nat, (ofChars (Digits.natural n)).IsPlain := by
    intro n
    rw [isPlain_ofChars]
    intro c hc
    have hdigit := Digits.isDigit_of_mem_natural hc
    simp only [Char.isDigit, Bool.and_eq_true, decide_eq_true_eq] at hdigit
    have hzero : '0'.toNat ≤ c.toNat := hdigit.1
    exact Nat.le_trans (by decide) hzero
  rcases n with n | n
  · exact hnatural n
  · exact isPlain_ofChars_cons.2 ⟨by decide, hnatural (n + 1)⟩

end Json

namespace Document

open Json Text

mutual

theorem isPlain_of_toJson : ∀ {d : Document} {v : Json}, d.toJson = .ok v →
    (ofChars (v.print .compact)).IsPlain
  | null, _, h => by
    obtain rfl := Except.ok.inj h
    decide
  | truth b, _, h => by
    obtain rfl := Except.ok.inj h
    cases b <;> decide
  | integer n, _, h => by
    obtain rfl := Except.ok.inj h
    exact isPlain_integer n
  | text t, v, h => by
    rw [toJson] at h
    rcases ht : t.characters with run | cs <;> rw [ht] at h
    · cases h
    · obtain rfl := Except.ok.inj h
      exact isPlain_printString cs
  | object parts, v, h => by
    rw [toJson] at h
    rcases hparts : toJsonParts parts with run | entries <;> rw [hparts] at h
    · cases h
    · obtain rfl := Except.ok.inj h
      rw [Json.print, isPlain_ofChars_cons, isPlain_ofChars_append]
      exact ⟨by decide, isPlain_of_toJsonParts hparts, by decide⟩

theorem isPlain_of_toJsonParts : ∀ {parts : List (Text × Document)}
    {entries : List (List Char × Json)}, toJsonParts parts = .ok entries →
    (ofChars (printEntries .compact entries)).IsPlain
  | [], _, h => by
    obtain rfl := Except.ok.inj h
    exact fun _ hc => absurd hc List.not_mem_nil
  | (name, part) :: parts, _, h => by
    rcases hpart : toJson part with run | v
    · simp only [toJsonParts, hpart] at h
      cases h
    rcases hparts : toJsonParts parts with run | others
    · simp only [toJsonParts, hpart, hparts] at h
      cases h
    simp only [toJsonParts, hpart, hparts] at h
    obtain rfl := Except.ok.inj h
    have hv := isPlain_of_toJson hpart
    have hothers := isPlain_of_toJsonParts hparts
    have hseparators : (ofChars Style.compact.keySeparator).IsPlain
        ∧ (ofChars Style.compact.itemSeparator).IsPlain := by
      decide
    rcases others with _ | ⟨⟨key, w⟩, others⟩
    · simp only [printEntries, isPlain_ofChars_append]
      exact ⟨⟨isPlain_printString _, hseparators.1⟩, hv⟩
    · rw [printEntries.eq_def]
      simp only [isPlain_ofChars_append]
      exact ⟨⟨⟨⟨isPlain_printString _, hseparators.1⟩, hv⟩, hseparators.2⟩, hothers⟩

end

theorem isPlain_of_print {d : Document} {t : Text} (h : d.print = .ok t) : t.IsPlain := by
  rw [print] at h
  rcases hjson : d.toJson with run | v <;> rw [hjson] at h
  · cases h
  · obtain rfl := Except.ok.inj h
    exact isPlain_of_toJson hjson

end Document

namespace Text

theorem sequenceLength_of_ne {c : CodePoint} (h : c ≠ .scalar '\x1b') (t : Text) :
    sequenceLength (c :: t) = 0 := by
  have hnone : dropBeginning? (c :: t) "\x1b[" = none := by
    have hcons : ("\x1b[" : Text) = [.scalar '\x1b', .scalar '['] := rfl
    rw [hcons, dropBeginning?, if_neg h]
  rw [sequenceLength, hnone]

theorem withoutSequences_of_not_mem {t : Text} (h : .scalar '\x1b' ∉ t) :
    t.withoutSequences = t := by
  rw [withoutSequences]
  induction t with
  | nil => rfl
  | cons c t ih =>
    rw [List.mem_cons, not_or] at h
    have hlength : sequenceLength (c :: t) = 0 := sequenceLength_of_ne (Ne.symm h.1) t
    rw [withoutSequencesFrom.eq_def]
    simp only [hlength]
    rw [ih h.2]

end Text

/-- A text without control characters is printed as it is, as a line. -/
theorem Outcome.echo_of_isPlain {t : Text} (h : t.IsPlain) : echo t = t ++ "\n" := by
  refine Text.withoutSequences_of_not_mem fun hmem => ?_
  rcases List.mem_append.1 hmem with hmem | hmem
  · exact absurd (h _ hmem) (by decide)
  · revert hmem
    decide

end SearchConfig
