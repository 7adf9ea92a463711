import SearchConfig.Json.Reader
import SearchConfig.Proofs.Printed

/-!
# Printed values read back

The reader makes of the tokens of a value that value, wherever the nesting leaves room for it
(`run?_tokens`). So a printed value reads back (`read?_print`), also from its bytes, if its integers
are within the limit, its floating-point numbers read back and it is not nested too deeply.
-/

namespace SearchConfig

theorem Utf8.decode?_toUTF8 (cs : List Char) :
    Utf8.decode? (String.ofList cs).toUTF8 = some cs := by
  simp [Utf8.decode?, String.toUTF8, String.ofList]

namespace Json

mutual

/-- How many containers are open at most around a part of the value. -/
def depth : Json → Nat
  | array items => depthOfItems items
  | object entries => depthOfEntries entries
  | _ => 0

def depthOfItems : List Json → Nat
  | [] => 0
  | item :: items => max (depth item + 1) (depthOfItems items)

def depthOfEntries : List (List Char × Json) → Nat
  | [] => 0
  | (_, value) :: entries => max (depth value + 1) (depthOfEntries entries)

end

section Run

variable {nesting : Nat}

theorem run?_cons (t : Token) (ts : List Token) (p : Progress) :
    run? nesting (t :: ts) p = (step? nesting t p).bind (run? nesting ts) := rfl

theorem run?_literal (v : Json) {stack : List Frame} (h : stack.length ≤ nesting)
    (ts : List Token) : run? nesting (.literal v :: ts) (.inside .value stack)
      = (complete? v stack).bind (run? nesting ts) := by
  rw [run?_cons, step?, beginValue?, if_neg (by omega)]

theorem run?_string (s : List Char) {stack : List Frame} (h : stack.length ≤ nesting)
    (ts : List Token) : run? nesting (.string s :: ts) (.inside .value stack)
      = (complete? (string s) stack).bind (run? nesting ts) := by
  rw [run?_cons, step?, beginValue?, if_neg (by omega)]

/-- Items do not begin with the end of an array. -/
theorem run?_valueOrEnd (item : Json) (items : List Json) (ts : List Token) (stack : List Frame) :
    run? nesting (tokensOfItems (item :: items) ++ ts) (.inside .valueOrEnd stack)
      = run? nesting (tokensOfItems (item :: items) ++ ts) (.inside .value stack) := by
  rcases items with _ | ⟨item', items⟩ <;> rcases item with _ | b | n | x | s | items | entries <;> rfl

/-- Entries do not begin with the end of an object. -/
theorem run?_keyOrEnd (entry : List Char × Json) (entries : List (List Char × Json))
    (ts : List Token) (stack : List Frame) :
    run? nesting (tokensOfEntries (entry :: entries) ++ ts) (.inside .keyOrEnd stack)
      = run? nesting (tokensOfEntries (entry :: entries) ++ ts) (.inside .key stack) := by
  rcases entries with _ | ⟨entry', entries⟩ <;> rfl

mutual

/-- The tokens of a value complete it. -/
theorem run?_tokens :
    ∀ (v : Json) (stack : List Frame) (ts : List Token), stack.length + depth v ≤ nesting →
      run? nesting (tokens v ++ ts) (.inside .value stack)
        = (complete? v stack).bind (run? nesting ts)
  | null, _, ts, h => run?_literal null (Nat.le_of_add_right_le h) ts
  | bool b, _, ts, h => run?_literal (bool b) (Nat.le_of_add_right_le h) ts
  | int n, _, ts, h => run?_literal (int n) (Nat.le_of_add_right_le h) ts
  | float x, _, ts, h => run?_literal (float x) (Nat.le_of_add_right_le h) ts
  | string s, _, ts, h => run?_string s (Nat.le_of_add_right_le h) ts
  | array [], stack, ts, h => by
    rw [tokens, tokensOfItems, List.nil_append, List.cons_append, run?_cons, step?, beginValue?,
      if_neg (by omega)]
    rfl
  | array (item :: items), stack, ts, h => by
    have hitems := run?_tokensOfItems (item :: items) [] stack ts (List.cons_ne_nil _ _) h
    rw [tokens, List.cons_append, run?_cons, step?, beginValue?, if_neg (by omega)]
    rw [List.append_assoc, List.singleton_append, Option.bind_some, run?_valueOrEnd, hitems]
    rfl
  | object [], stack, ts, h => by
    rw [tokens, tokensOfEntries, List.nil_append, List.cons_append, run?_cons, step?, beginValue?,
      if_neg (by omega)]
    rfl
  | object (entry :: entries), stack, ts, h => by
    have hentries := run?_tokensOfEntries (entry :: entries) [] stack ts (List.cons_ne_nil _ _) h
    rw [tokens, List.cons_append, run?_cons, step?, beginValue?, if_neg (by omega)]
    rw [List.append_assoc, List.singleton_append, Option.bind_some, run?_keyOrEnd, hentries]
    rfl

/-- The tokens of the items that are left complete the array. -/
theorem run?_tokensOfItems :
    ∀ (items : List Json) (done : List Json) (stack : List Frame) (ts : List Token),
      items ≠ [] → stack.length + depthOfItems items ≤ nesting →
      run? nesting (tokensOfItems items ++ .closeArray :: ts)
          (.inside .value (.items done :: stack))
        = (complete? (array (done.reverse ++ items)) stack).bind (run? nesting ts)
  | [], _, _, _, hne, _ => absurd rfl hne
  | [item], done, stack, ts, _, h => by
    simp only [depthOfItems, Nat.max_zero] at h
    rw [tokensOfItems, run?_tokens item _ _ (by simp only [List.length_cons]; omega)]
    simp [complete?, run?_cons, step?]
  | item :: item' :: items, done, stack, ts, _, h => by
    rw [depthOfItems] at h
    have hitems := run?_tokensOfItems (item' :: items) (item :: done) stack ts
      (List.cons_ne_nil _ _) (by omega)
    rw [tokensOfItems, List.append_assoc,
      run?_tokens item _ _ (by simp only [List.length_cons]; omega)]
    · simpa [complete?, run?_cons, step?] using hitems
    · simp

/-- The tokens of the entries that are left complete the object. -/
theorem run?_tokensOfEntries :
    ∀ (entries done : List (List Char × Json)) (stack : List Frame) (ts : List Token),
      entries ≠ [] → stack.length + depthOfEntries entries ≤ nesting →
      run? nesting (tokensOfEntries entries ++ .closeObject :: ts)
          (.inside .key (.fields done :: stack))
        = (complete? (object (done.reverse ++ entries)) stack).bind (run? nesting ts)
  | [], _, _, _, hne, _ => absurd rfl hne
  | [(key, value)], done, stack, ts, _, h => by
    simp only [depthOfEntries, Nat.max_zero] at h
    have hvalue := run?_tokens value (.field done key :: stack) (.closeObject :: ts)
      (by simp only [List.length_cons]; omega)
    have hroom : ¬ nesting < stack.length + 1 := by omega
    simp only [tokensOfEntries, List.cons_append, run?_cons, step?, beginField?, List.length_cons,
      if_neg hroom, Option.bind_some, hvalue]
    simp [complete?, run?_cons, step?]
  | (key, value) :: entry :: entries, done, stack, ts, _, h => by
    rw [depthOfEntries] at h
    have hentries := run?_tokensOfEntries (entry :: entries) ((key, value) :: done) stack ts
      (List.cons_ne_nil _ _) (by omega)
    have hvalue := run?_tokens value (.field done key :: stack)
      (.comma :: (tokensOfEntries (entry :: entries) ++ .closeObject :: ts))
      (by simp only [List.length_cons]; omega)
    have hroom : ¬ nesting < stack.length + 1 := by omega
    simp only [tokensOfEntries, List.cons_append, List.append_assoc, run?_cons, step?, beginField?,
      List.length_cons, if_neg hroom, Option.bind_some, hvalue]
    simpa [complete?, run?_cons, step?] using hentries

end

end Run

/-- A printed value reads back. -/
theorem read?_print {style : Style} (hs : style.IsReadable) {nesting : Nat} {v : Json}
    (hv : Each ReadsBack v) (hdepth : depth v ≤ nesting) :
    read? nesting (print style v) = some v := by
  have hnil : tokens? [] = some [] := by rw [tokens?_eq, List.dropWhile_nil]
  have htokens := tokens?_print hs v hv [] Token.ends_nil
  have hrun := run?_tokens v [] [] (by simpa using hdepth)
  rw [List.append_nil, hnil] at htokens
  rw [List.append_nil] at hrun
  rw [read?, htokens, Option.map_some, Option.bind_some, List.append_nil, hrun]
  rfl

/-- The bytes of a value hold that value. -/
theorem ofBytes?_toBytes {v : Json} (hv : Each ReadsBack v) (hdepth : depth v ≤ maxNesting) :
    ofBytes? v.toBytes = some v := by
  rw [ofBytes?, toBytes, Utf8.decode?_toUTF8]
  exact read?_print Style.compact_isReadable hv hdepth

end Json

end SearchConfig
