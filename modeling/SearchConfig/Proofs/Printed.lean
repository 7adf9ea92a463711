import SearchConfig.Json.Printer
import SearchConfig.Proofs.Numerals

/-!
# The tokens of printed values

A printed string reads back as it was, character by character, whatever its style escapes
(`stringBody?_printed`), and a printed value is taken apart into its own tokens (`tokens?_print`),
if its integers are within the limit and its floating-point numbers read back.
-/

namespace SearchConfig.Json

namespace Token

variable (style : Style)

/-- An escaped UTF-16 unit that is no surrogate stands for its character. -/
theorem stringBody?_unitEscape {c : Char} (h : c.toNat < 0x10000) (rest : List Char) :
    stringBody? (unitEscape c.toNat ++ rest) = (stringBody? rest).map fun (s, r) => (c :: s, r) := by
  obtain ⟨x, y, z, w, hhex, hunit⟩ := hexUnit?_hex h
  have hvalid : c.toNat < 0xD800 ∨ 0xE000 ≤ c.toNat := by
    rcases c.valid with hv | hv
    · exact .inl hv
    · exact .inr hv.1
  have hescape : unitEscape c.toNat ++ rest = '\\' :: 'u' :: x :: y :: z :: w :: rest := by
    rw [unitEscape, hhex]
    rfl
  rw [hescape, stringBody?, hunit]
  simp only []
  rw [if_neg (by omega), if_neg (by omega), Char.ofNat_toNat]

theorem pair?_halves {n : Nat} (h : 0x10000 ≤ n) :
    pair? (0xD800 + (n - 0x10000) / 0x400) (0xDC00 + (n - 0x10000) % 0x400)
      = some (Char.ofNat n) := by
  have hn : 0x10000 + (0xD800 + (n - 0x10000) / 0x400 - 0xD800) * 0x400
      + (0xDC00 + (n - 0x10000) % 0x400 - 0xDC00) = n := by omega
  rw [pair?, if_pos (by omega), hn]

/-- The escapes of a surrogate pair stand for one character. -/
theorem stringBody?_pair {c : Char} {high low : Nat} (hhigh : 0xD800 ≤ high ∧ high < 0xDC00)
    (hlow : low < 0xE000) (hpair : pair? high low = some c) (rest : List Char) :
    stringBody? (unitEscape high ++ unitEscape low ++ rest)
      = (stringBody? rest).map fun (s, r) => (c :: s, r) := by
  obtain ⟨x, y, z, w, hhex, hunit⟩ := hexUnit?_hex (u := high) (by omega)
  obtain ⟨x', y', z', w', hhex', hunit'⟩ := hexUnit?_hex (u := low) (by omega)
  have hescape : unitEscape high ++ unitEscape low ++ rest
      = '\\' :: 'u' :: x :: y :: z :: w :: '\\' :: 'u' :: x' :: y' :: z' :: w' :: rest := by
    rw [unitEscape, unitEscape, hhex, hhex']
    rfl
  rw [hescape, stringBody?, hunit]
  simp only [hunit', Option.bind_some, hpair]
  rw [if_pos hhigh]

theorem stringBody?_plain {c : Char} (hquote : c ≠ '"') (hslash : c ≠ '\\') (hcontrol : ¬ c < ' ')
    (rest : List Char) :
    stringBody? (c :: rest) = (stringBody? rest).map fun (s, r) => (c :: s, r) := by
  rw [stringBody?, if_neg (not_or.2 ⟨hslash, hcontrol⟩)]
  · exact hquote
  · exact fun _ _ _ _ _ heq _ => hslash heq
  · exact fun _ _ heq _ => hslash heq

theorem toNat_lt_of_lt {c d : Char} (h : c < d) : c.toNat < d.toNat := h

/-- A printed character reads back. -/
theorem stringBody?_escape (c : Char) (rest : List Char) :
    stringBody? (escape style c ++ rest) = (stringBody? rest).map fun (s, r) => (c :: s, r) := by
  unfold escape
  split
  · subst_vars
    rfl
  split
  · subst_vars
    rfl
  split
  · subst_vars
    rfl
  split
  · subst_vars
    rfl
  split
  · subst_vars
    rfl
  split
  · subst_vars
    rfl
  split
  · subst_vars
    rfl
  split
  · rename_i h
    exact stringBody?_unitEscape (Nat.lt_trans (toNat_lt_of_lt h) (by decide)) rest
  split
  · exact stringBody?_plain ‹_› ‹_› ‹_› rest
  split
  · rename_i h
    exact stringBody?_unitEscape h rest
  · rename_i h
    have hlimit : c.toNat < 0x110000 := by
      rcases c.valid with hv | hv
      · exact Nat.lt_trans hv (by decide)
      · exact hv.2
    have hpair := pair?_halves (Nat.le_of_not_lt h)
    rw [Char.ofNat_toNat] at hpair
    exact stringBody?_pair (by omega) (by omega) hpair rest

/-- A printed string reads back up to its closing quote. -/
theorem stringBody?_printed (s rest : List Char) :
    stringBody? (s.flatMap (escape style) ++ '"' :: rest) = some (s, rest) := by
  induction s with
  | nil => simp [stringBody?]
  | cons c s ih =>
    rw [List.flatMap_cons, List.append_assoc, stringBody?_escape, ih]
    rfl

theorem next?_of_isDigit {c : Char} (h : c.isDigit = true) (cs : List Char) :
    next? (c :: cs) = number? false (c :: cs) := by
  rw [next?]
  all_goals
    intro rest heq
    rw [(List.cons.inj heq).1] at h
    exact absurd h (by decide)

theorem next?_minus_of_isDigit {c : Char} (h : c.isDigit = true) (cs : List Char) :
    next? ('-' :: c :: cs) = number? true (c :: cs) := by
  rw [next?]
  intro rest heq
  rw [(List.cons.inj heq).1] at h
  exact absurd h (by decide)

theorem exists_digit_of_number? {negative : Bool} {cs : List Char} {r : Token × List Char}
    (h : number? negative cs = some r) : ∃ d ds, cs = d :: ds ∧ d.isDigit = true := by
  rcases cs with _ | ⟨d, ds⟩
  · simp [number?, digits] at h
  · refine ⟨d, ds, rfl, ?_⟩
    rcases hd : d.isDigit
    · simp [number?, digits, hd] at h
    · rfl

/-- A numeral with its sign is a token. -/
theorem next?_of_number? {negative : Bool} {cs : List Char} {r : Token × List Char}
    (h : number? negative cs = some r) : next? (Binary64.sign negative ++ cs) = some r := by
  obtain ⟨d, ds, rfl, hd⟩ := exists_digit_of_number? h
  rcases negative
  · exact (next?_of_isDigit hd ds).trans h
  · exact (next?_minus_of_isDigit hd ds).trans h

/-- An integer within the limit reads back. -/
theorem next?_integer {n : Int} (hn : Digits.isWritable n = true) {rest : List Char}
    (hrest : Ends rest) :
    next? (Digits.integer n ++ rest) = some (literal (.int n), rest) := by
  have hcount : Digits.count n.natAbs ≤ Digits.limit := by
    simpa [Digits.isWritable] using hn
  rcases n with n | n
  · have hread : number? false (Digits.natural n ++ rest) = some (literal (.int n), rest) :=
      number?_natural false hcount hrest
    exact next?_of_number? hread
  · have hread : number? true (Digits.natural (n + 1) ++ rest)
        = some (literal (.int (.negSucc n)), rest) :=
      number?_natural true hcount hrest
    exact next?_of_number? hread

theorem next?_quote (rest : List Char) :
    next? ('"' :: rest) = (stringBody? rest).map fun (s, r) => (string s, r) := rfl

theorem next?_string (s rest : List Char) :
    next? (printString style s ++ rest) = some (string s, rest) := by
  have hprinted : printString style s ++ rest = '"' :: (s.flatMap (escape style) ++ '"' :: rest) := by
    simp [printString]
  rw [hprinted, next?_quote, stringBody?_printed]
  rfl

/-- No token begins with a blank. -/
theorem next?_blank {c : Char} (h : isBlank c = true) (cs : List Char) : next? (c :: cs) = none := by
  simp only [isBlank, Bool.or_eq_true, beq_iff_eq] at h
  rcases h with ((rfl | rfl) | rfl) | rfl <;> rfl

end Token

/-- All tokens of a text, from the first one on. -/
theorem tokens?_eq (cs : List Char) :
    tokens? cs = match cs.dropWhile Token.isBlank with
      | [] => some []
      | c :: cs' => (Token.next? (c :: cs')).bind fun (t, rest) => (tokens? rest).map (t :: ·) := by
  rw [tokens?]
  split
  · rename_i h
    rw [h]
  · rename_i c cs' h
    rw [h]
    split
    · rename_i hnext
      simp only [hnext, Option.bind_none]
    · rename_i hnext
      simp only [hnext, Option.bind_some]

theorem tokens?_blanks {blanks : List Char} (h : ∀ c ∈ blanks, Token.isBlank c = true)
    (cs : List Char) : tokens? (blanks ++ cs) = tokens? cs := by
  rw [tokens?_eq, tokens?_eq cs, List.dropWhile_append_of_pos h]

theorem tokens?_of_next? {cs rest : List Char} {t : Token}
    (h : Token.next? cs = some (t, rest)) : tokens? cs = (tokens? rest).map (t :: ·) := by
  rcases cs with _ | ⟨c, cs⟩
  · simp [Token.next?, Token.number?, Token.digits] at h
  · have hblank : Token.isBlank c = false := by
      rcases hc : Token.isBlank c
      · rfl
      · rw [Token.next?_blank hc] at h
        exact absurd h (by simp)
    rw [tokens?_eq, List.dropWhile_cons, hblank]
    simp [h]

mutual

/-- The tokens of a value. -/
def tokens : Json → List Token
  | array items => .openArray :: (tokensOfItems items ++ [.closeArray])
  | object entries => .openObject :: (tokensOfEntries entries ++ [.closeObject])
  | string s => [.string s]
  | null => [.literal null]
  | bool b => [.literal (bool b)]
  | int n => [.literal (int n)]
  | float x => [.literal (float x)]

def tokensOfItems : List Json → List Token
  | [] => []
  | [item] => tokens item
  | item :: items => tokens item ++ .comma :: tokensOfItems items

def tokensOfEntries : List (List Char × Json) → List Token
  | [] => []
  | [(key, value)] => .string key :: .colon :: tokens value
  | (key, value) :: entries =>
    .string key :: .colon :: (tokens value ++ .comma :: tokensOfEntries entries)

end

mutual

/-- Has every value inside that is no container the property? -/
def Each (p : Json → Prop) : Json → Prop
  | array items => EachItem p items
  | object entries => EachEntry p entries
  | string s => p (string s)
  | null => p null
  | bool b => p (bool b)
  | int n => p (int n)
  | float x => p (float x)

def EachItem (p : Json → Prop) : List Json → Prop
  | [] => True
  | item :: items => Each p item ∧ EachItem p items

def EachEntry (p : Json → Prop) : List (List Char × Json) → Prop
  | [] => True
  | (_, value) :: entries => Each p value ∧ EachEntry p entries

end

/-- Does a number read back from its text? An integer does if it is within the limit. -/
def ReadsBack : Json → Prop
  | int n => Digits.isWritable n = true
  | float x => ∀ rest, Token.Ends rest →
    Token.next? (x.display .words ++ rest) = some (.literal (.float x), rest)
  | _ => True

/-- A style whose separators are a comma and a colon with blanks behind them. -/
structure Style.IsReadable (style : Style) : Prop where
  item : ∃ blanks, style.itemSeparator = ',' :: blanks ∧ ∀ c ∈ blanks, Token.isBlank c = true
  key : ∃ blanks, style.keySeparator = ':' :: blanks ∧ ∀ c ∈ blanks, Token.isBlank c = true

theorem Style.compact_isReadable : Style.compact.IsReadable :=
  ⟨⟨[], rfl, by simp⟩, ⟨[], rfl, by simp⟩⟩

section Tokens

variable {style : Style}

theorem tokens?_itemSeparator (hs : style.IsReadable) (cs : List Char) :
    tokens? (style.itemSeparator ++ cs) = (tokens? cs).map (.comma :: ·) := by
  obtain ⟨blanks, heq, hblanks⟩ := hs.item
  rw [heq, ← tokens?_blanks hblanks cs]
  exact tokens?_of_next? rfl

theorem tokens?_keySeparator (hs : style.IsReadable) (cs : List Char) :
    tokens? (style.keySeparator ++ cs) = (tokens? cs).map (.colon :: ·) := by
  obtain ⟨blanks, heq, hblanks⟩ := hs.key
  rw [heq, ← tokens?_blanks hblanks cs]
  exact tokens?_of_next? rfl

theorem ends_itemSeparator (hs : style.IsReadable) (cs : List Char) :
    Token.Ends (style.itemSeparator ++ cs) := by
  obtain ⟨blanks, heq, -⟩ := hs.item
  rw [heq]
  exact Token.ends_cons (by decide) (by decide) _

mutual

/-- A printed value is taken apart into its tokens, whatever stands behind it that does not go on
with a number. -/
theorem tokens?_print (hs : style.IsReadable) :
    ∀ (v : Json), Each ReadsBack v → ∀ (rest : List Char), Token.Ends rest →
      tokens? (print style v ++ rest) = (tokens? rest).map (tokens v ++ ·)
  | null, _, rest, _ => tokens?_of_next? rfl
  | bool true, _, rest, _ => tokens?_of_next? rfl
  | bool false, _, rest, _ => tokens?_of_next? rfl
  | int n, h, rest, hrest => tokens?_of_next? (Token.next?_integer h hrest)
  | float x, h, rest, hrest => tokens?_of_next? (h rest hrest)
  | string s, _, rest, _ => tokens?_of_next? (Token.next?_string style s rest)
  | array items, h, rest, _ => by
    have hclose : tokens? (']' :: rest) = (tokens? rest).map (.closeArray :: ·) :=
      tokens?_of_next? rfl
    have hitems := tokens?_printItems hs items h (']' :: rest)
      (Token.ends_cons (by decide) (by decide) rest)
    have hopen := tokens?_of_next? (rfl : Token.next? ('[' :: (printItems style items ++ ']' :: rest))
      = some (.openArray, printItems style items ++ ']' :: rest))
    rw [hitems, hclose] at hopen
    simpa [print, tokens, Function.comp_def] using hopen
  | object entries, h, rest, _ => by
    have hclose : tokens? ('\x7d' :: rest) = (tokens? rest).map (.closeObject :: ·) :=
      tokens?_of_next? rfl
    have hentries := tokens?_printEntries hs entries h ('\x7d' :: rest)
      (Token.ends_cons (by decide) (by decide) rest)
    have hopen := tokens?_of_next?
      (rfl : Token.next? ('\x7b' :: (printEntries style entries ++ '\x7d' :: rest))
        = some (.openObject, printEntries style entries ++ '\x7d' :: rest))
    rw [hentries, hclose] at hopen
    simpa [print, tokens, Function.comp_def] using hopen

theorem tokens?_printItems (hs : style.IsReadable) :
    ∀ (items : List Json), EachItem ReadsBack items → ∀ (rest : List Char), Token.Ends rest →
      tokens? (printItems style items ++ rest) = (tokens? rest).map (tokensOfItems items ++ ·)
  | [], _, rest, _ => by simp [printItems, tokensOfItems]
  | [item], h, rest, hrest => tokens?_print hs item h.1 _ hrest
  | item :: item' :: items, h, rest, hrest => by
    have hitems := tokens?_printItems hs (item' :: items) h.2 _ hrest
    have hitem := tokens?_print hs item h.1 _
      (ends_itemSeparator hs (printItems style (item' :: items) ++ rest))
    rw [tokens?_itemSeparator hs, hitems] at hitem
    simpa [printItems, tokensOfItems, Function.comp_def] using hitem

theorem tokens?_printEntries (hs : style.IsReadable) :
    ∀ (entries : List (List Char × Json)), EachEntry ReadsBack entries →
      ∀ (rest : List Char), Token.Ends rest →
        tokens? (printEntries style entries ++ rest)
          = (tokens? rest).map (tokensOfEntries entries ++ ·)
  | [], _, rest, _ => by simp [printEntries, tokensOfEntries]
  | [(key, value)], h, rest, hrest => by
    have hvalue := tokens?_print hs value h.1 _ hrest
    have hkey := tokens?_of_next?
      (Token.next?_string style key (style.keySeparator ++ (print style value ++ rest)))
    rw [tokens?_keySeparator hs, hvalue] at hkey
    simpa [printEntries, tokensOfEntries, Function.comp_def] using hkey
  | (key, value) :: entry :: entries, h, rest, hrest => by
    have hentries := tokens?_printEntries hs (entry :: entries) h.2 _ hrest
    have hvalue := tokens?_print hs value h.1 _
      (ends_itemSeparator hs (printEntries style (entry :: entries) ++ rest))
    have hkey := tokens?_of_next? (Token.next?_string style key (style.keySeparator
      ++ (print style value ++ (style.itemSeparator
        ++ (printEntries style (entry :: entries) ++ rest)))))
    rw [tokens?_keySeparator hs, hvalue, tokens?_itemSeparator hs, hentries] at hkey
    simpa [printEntries, tokensOfEntries, Function.comp_def] using hkey

end

end Tokens

end SearchConfig.Json
