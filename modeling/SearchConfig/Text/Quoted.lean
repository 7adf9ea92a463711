import SearchConfig.Text.Category

/-!
# Quoted texts

A text shown between quotes, on one line and with every unprintable code point escaped. Single
quotes are used unless the text holds some and no double ones. Byte strings are quoted alike, with
every byte outside printable ASCII escaped.
-/

namespace SearchConfig.Text

/-- The quote that needs fewer escapes. -/
def quoteFor (holdsSingle holdsDouble : Bool) : Char :=
  if holdsSingle && !holdsDouble then '"' else '\''

/-- A code point between the given quotes. -/
def quotedPoint (quote : Char) (c : CodePoint) : Text :=
  if c = quote || c = '\\' then ['\\', c]
  else if c = '\t' then "\\t"
  else if c = '\n' then "\\n"
  else if c = '\r' then "\\r"
  else if c.isPrintable then [c]
  else if c.value < 0x100 then "\\x" ++ ofHex 2 c.value
  else if c.value < 0x10000 then "\\u" ++ ofHex 4 c.value
  else "\\U" ++ ofHex 8 c.value

/-- The text between quotes. -/
def quoted (t : Text) : Text :=
  let quote := quoteFor (t.contains (.scalar '\'')) (t.contains (.scalar '"'))
  .scalar quote :: (t.flatMap (quotedPoint quote) ++ [.scalar quote])

/-- A byte between quotes; `escaped` says which characters have a backslash before them. -/
def quotedByte (escaped : Char → Bool) (b : UInt8) : Text :=
  let c := Char.ofNat b.toNat
  if escaped c then ['\\', c]
  else if c = '\t' then "\\t"
  else if c = '\n' then "\\n"
  else if c = '\r' then "\\r"
  else if ' ' ≤ c ∧ c ≤ '~' then [.scalar c]
  else "\\x" ++ ofHex 2 b.toNat

/-- The quote for a byte string. -/
def quoteForBytes (bytes : ByteArray) : Char :=
  quoteFor (bytes.toList.contains 0x27) (bytes.toList.contains 0x22)

/-- Bytes marked by a letter and put between quotes. -/
def markedBytes (quote : Char) (escaped : Char → Bool) (bytes : ByteArray) : Text :=
  .scalar 'b' :: .scalar quote :: (bytes.toList.flatMap (quotedByte escaped) ++ [.scalar quote])

/-- A byte string, marked by a letter and put between quotes. -/
def quotedBytes (bytes : ByteArray) : Text :=
  let quote := quoteForBytes bytes
  markedBytes quote (fun c => c = quote || c = '\\') bytes

/-- A byte string that can be changed is quoted alike, but its single quotes are always escaped. -/
def quotedBuffer (bytes : ByteArray) : Text :=
  markedBytes (quoteForBytes bytes) (fun c => c = '\'' || c = '\\') bytes

end SearchConfig.Text
