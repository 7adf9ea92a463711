import SearchConfig.Json.Basic

/-!
# JSON tokens

Brackets, commas, colons, strings, numbers and words, with blanks between them left out. A string is
read with its escapes resolved: `\u` escapes of a surrogate pair give one character, and a surrogate
that is not half of a pair is refused. A number with a fraction or an exponent is a floating-point
number, any other an integer; more than `Digits.limit` digits before the point are refused.
-/

namespace SearchConfig.Json

inductive Token where
  | openArray
  | closeArray
  | openObject
  | closeObject
  | comma
  | colon
  | string (s : List Char)
  | literal (v : Json)

namespace Token

/-- Blanks between tokens; no other white space is allowed. -/
def isBlank (c : Char) : Bool := c == ' ' || c == '\t' || c == '\n' || c == '\r'

/-- The number that four hexadecimal digits stand for. -/
def hexUnit? (a b c d : Char) : Option Nat := do
  return 4096 * (← Digits.hexValue? a) + 256 * (← Digits.hexValue? b)
    + 16 * (← Digits.hexValue? c) + (← Digits.hexValue? d)

/-- The character that a one-letter escape stands for. -/
def escaped? : Char → Option Char
  | '"' => some '"'
  | '\\' => some '\\'
  | '/' => some '/'
  | 'b' => some '\x08'
  | 'f' => some '\x0c'
  | 'n' => some '\n'
  | 'r' => some '\r'
  | 't' => some '\t'
  | _ => none

/-- The character of a surrogate pair. -/
def pair? (high low : Nat) : Option Char :=
  if 0xDC00 ≤ low ∧ low < 0xE000 then
    some (Char.ofNat (0x10000 + (high - 0xD800) * 0x400 + (low - 0xDC00)))
  else none

/-- Reads the characters of a string up to its closing quote. -/
def stringBody? : List Char → Option (List Char × List Char)
  | [] => none
  | '"' :: rest => some ([], rest)
  | '\\' :: 'u' :: a :: b :: c :: d :: rest =>
    match hexUnit? a b c d with
    | none => none
    | some unit =>
      if 0xD800 ≤ unit ∧ unit < 0xDC00 then
        match rest with
        | '\\' :: 'u' :: e :: f :: g :: h :: rest =>
          match (hexUnit? e f g h).bind (pair? unit) with
          | none => none
          | some x => (stringBody? rest).map fun (s, rest) => (x :: s, rest)
        | _ => none
      else if 0xDC00 ≤ unit ∧ unit < 0xE000 then none
      else (stringBody? rest).map fun (s, rest) => (Char.ofNat unit :: s, rest)
  | '\\' :: c :: rest =>
    match escaped? c with
    | none => none
    | some x => (stringBody? rest).map fun (s, rest) => (x :: s, rest)
  | c :: rest =>
    if c = '\\' ∨ c < ' ' then none else (stringBody? rest).map fun (s, rest) => (c :: s, rest)

/-- The digits in front, and the rest. -/
def digits (cs : List Char) : List Char × List Char :=
  (cs.takeWhile Char.isDigit, cs.dropWhile Char.isDigit)

/-- The digits behind a point, if there is one. -/
def fraction? : List Char → Option (Option (List Char) × List Char)
  | '.' :: cs =>
    match digits cs with
    | ([], _) => none
    | (ds, rest) => some (some ds, rest)
  | cs => some (none, cs)

/-- The digits of an exponent, with or without a sign. -/
def exponentDigits? (negative : Bool) (cs : List Char) : Option (Option Int × List Char) :=
  match digits cs with
  | ([], _) => none
  | (ds, rest) =>
    let power : Int := Digits.value ds
    some (some (if negative then -power else power), rest)

/-- An exponent, if there is one. -/
def exponent? : List Char → Option (Option Int × List Char)
  | c :: cs =>
    if c = 'e' ∨ c = 'E' then
      match cs with
      | '+' :: cs => exponentDigits? false cs
      | '-' :: cs => exponentDigits? true cs
      | cs => exponentDigits? false cs
    else some (none, c :: cs)
  | [] => some (none, [])

/-- The number with the given parts. -/
def number (negative : Bool) (whole : List Char) (fraction : Option (List Char))
    (exponent : Option Int) : Json :=
  match fraction, exponent with
  | none, none => .int (if negative then -(Digits.value whole : Int) else Digits.value whole)
  | _, _ =>
    let decimals := fraction.getD []
    .float (.ofDecimal negative
      ⟨Digits.value (whole ++ decimals), exponent.getD 0 - (decimals.length : Int)⟩)

/-- Reads a number without its sign. -/
def number? (negative : Bool) (cs : List Char) : Option (Token × List Char) :=
  match digits cs with
  | ([], _) => none
  | (whole, rest) =>
    if whole.head? = some '0' ∧ 1 < whole.length ∨ Digits.limit < whole.length then none
    else do
      let (fraction, rest) ← fraction? rest
      let (exponent, rest) ← exponent? rest
      return (literal (number negative whole fraction exponent), rest)

/-- Reads one token. -/
def next? : List Char → Option (Token × List Char)
  | '[' :: rest => some (openArray, rest)
  | ']' :: rest => some (closeArray, rest)
  | '\x7b' :: rest => some (openObject, rest)
  | '\x7d' :: rest => some (closeObject, rest)
  | ',' :: rest => some (comma, rest)
  | ':' :: rest => some (colon, rest)
  | '"' :: rest => (stringBody? rest).map fun (s, rest) => (string s, rest)
  | 'n' :: 'u' :: 'l' :: 'l' :: rest => some (literal .null, rest)
  | 't' :: 'r' :: 'u' :: 'e' :: rest => some (literal (.bool true), rest)
  | 'f' :: 'a' :: 'l' :: 's' :: 'e' :: rest => some (literal (.bool false), rest)
  | 'N' :: 'a' :: 'N' :: rest => some (literal (.float .nan), rest)
  | 'I' :: 'n' :: 'f' :: 'i' :: 'n' :: 'i' :: 't' :: 'y' :: rest =>
    some (literal (.float (.infinity false)), rest)
  | '-' :: 'I' :: 'n' :: 'f' :: 'i' :: 'n' :: 'i' :: 't' :: 'y' :: rest =>
    some (literal (.float (.infinity true)), rest)
  | '-' :: rest => number? true rest
  | rest => number? false rest

theorem exists_of_map_cons {x : Char} {o : Option (List Char × List Char)} {s rest : List Char}
    (h : (o.map fun (s, rest) => (x :: s, rest)) = some (s, rest)) : ∃ s', o = some (s', rest) := by
  obtain ⟨⟨s', rest'⟩, hs, he⟩ := Option.map_eq_some_iff.1 h
  exact ⟨s', by rw [hs, (Prod.mk.inj he).2]⟩

theorem length_lt_of_stringBody? {cs s rest : List Char} (h : stringBody? cs = some (s, rest)) :
    rest.length < cs.length := by
  fun_induction stringBody? cs generalizing s with
  | case1 => simp at h
  | case2 => simp_all
  | case3 => simp at h
  | case4 => simp at h
  | case5 a b c d unit _ _ e f g i rest' x _ ih =>
    obtain ⟨s', hs⟩ := exists_of_map_cons h
    have := ih hs
    simp only [List.length_cons]
    omega
  | case6 => simp at h
  | case7 => simp at h
  | case8 a b c d rest' unit _ _ _ ih =>
    obtain ⟨s', hs⟩ := exists_of_map_cons h
    have := ih hs
    simp only [List.length_cons]
    omega
  | case9 => simp at h
  | case10 c rest' _ x _ ih =>
    obtain ⟨s', hs⟩ := exists_of_map_cons h
    have := ih hs
    simp only [List.length_cons]
    omega
  | case11 => simp at h
  | case12 c rest' _ _ _ _ ih =>
    obtain ⟨s', hs⟩ := exists_of_map_cons h
    have := ih hs
    simp only [List.length_cons]
    omega

theorem length_digits_le (cs : List Char) : (digits cs).2.length ≤ cs.length :=
  (List.dropWhile_suffix _).length_le

theorem length_lt_of_digits {cs ds rest : List Char} (h : digits cs = (ds, rest)) (hds : ds ≠ []) :
    rest.length < cs.length := by
  have happ := List.takeWhile_append_dropWhile (p := Char.isDigit) (l := cs)
  simp only [digits, Prod.mk.injEq] at h
  rw [h.1, h.2] at happ
  have := List.length_pos_iff.2 hds
  rw [← happ, List.length_append]
  omega

theorem length_le_of_fraction? {cs rest : List Char} {f : Option (List Char)}
    (h : fraction? cs = some (f, rest)) : rest.length ≤ cs.length := by
  unfold fraction? at h
  split at h
  · rename_i ds
    split at h
    · simp at h
    · rename_i r heq
      simp only [Option.some.injEq, Prod.mk.injEq] at h
      have := length_digits_le ds
      rw [heq] at this
      simp only [h.2] at this
      simp only [List.length_cons]
      omega
  · simp only [Option.some.injEq, Prod.mk.injEq] at h
    exact Nat.le_of_eq (congrArg List.length h.2.symm)

theorem length_le_of_exponentDigits? {negative : Bool} {cs rest : List Char} {e : Option Int}
    (h : exponentDigits? negative cs = some (e, rest)) : rest.length ≤ cs.length := by
  unfold exponentDigits? at h
  split at h
  · simp at h
  · rename_i r heq
    simp only [Option.some.injEq, Prod.mk.injEq] at h
    have := length_digits_le cs
    rw [heq] at this
    simpa only [h.2] using this

theorem length_le_of_exponent? {cs rest : List Char} {e : Option Int}
    (h : exponent? cs = some (e, rest)) : rest.length ≤ cs.length := by
  unfold exponent? at h
  split at h
  · split at h
    · split at h
      all_goals
        have := length_le_of_exponentDigits? h
        simp only [List.length_cons] at *
        omega
    · simp only [Option.some.injEq, Prod.mk.injEq] at h
      exact Nat.le_of_eq (congrArg List.length h.2.symm)
  · simp only [Option.some.injEq, Prod.mk.injEq] at h
    exact Nat.le_of_eq (congrArg List.length h.2.symm)

theorem length_lt_of_number? {negative : Bool} {cs rest : List Char} {t : Token}
    (h : number? negative cs = some (t, rest)) : rest.length < cs.length := by
  unfold number? at h
  split at h
  · simp at h
  · rename_i whole r hne heq
    split at h
    · simp at h
    · obtain ⟨⟨f, r₁⟩, hf, h⟩ := Option.bind_eq_some_iff.1 h
      obtain ⟨⟨e, r₂⟩, he, h⟩ := Option.bind_eq_some_iff.1 h
      have h₀ := length_lt_of_digits heq hne
      have h₁ := length_le_of_fraction? hf
      have h₂ := length_le_of_exponent? he
      simp only [pure, Option.some.injEq, Prod.mk.injEq] at h
      rw [← h.2]
      omega

/-- Reading a token shortens the input. -/
theorem length_lt_of_next? {cs rest : List Char} {t : Token} (h : next? cs = some (t, rest)) :
    rest.length < cs.length := by
  unfold next? at h
  split at h
  case h_7 =>
    obtain ⟨⟨s, r⟩, hs, he⟩ := Option.map_eq_some_iff.1 h
    have := length_lt_of_stringBody? hs
    simp only [Prod.mk.injEq] at he
    simp only [List.length_cons, ← he.2]
    omega
  case h_14 =>
    have := length_lt_of_number? h
    simp only [List.length_cons]
    omega
  case h_15 => exact length_lt_of_number? h
  all_goals
    simp only [Option.some.injEq, Prod.mk.injEq] at h
    simp only [List.length_cons, ← h.2]
    omega

end Token

/-- All tokens of a text. -/
def tokens? (cs : List Char) : Option (List Token) :=
  match _hcs : cs.dropWhile Token.isBlank with
  | [] => some []
  | c :: cs' =>
    match _hnext : Token.next? (c :: cs') with
    | none => none
    | some (t, rest) => (tokens? rest).map (t :: ·)
termination_by cs.length
decreasing_by
  have h₁ := (List.dropWhile_suffix Token.isBlank (l := cs)).length_le
  have h₂ := Token.length_lt_of_next? _hnext
  rw [_hcs] at h₁
  omega

end SearchConfig.Json
