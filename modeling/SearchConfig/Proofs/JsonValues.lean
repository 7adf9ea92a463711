import SearchConfig.Proofs.ReadBack
import SearchConfig.Proofs.UnicodeTexts
import SearchConfig.Value.Serialize

/-!
# Values as JSON

A value has a JSON text that is Unicode if and only if it is built of what JSON knows, in the keys
of its dictionaries as in its parts (`Value.isUnicode_serialize_iff`). Besides secrets and byte
strings these are the values that can be captured (`Secret.exists_capture_iff`), and what is captured
of them is the UTF-8 form of that text.
-/

namespace SearchConfig

namespace Text

variable {s t : Text}

theorem isScalar_ofChars (cs : List Char) : (ofChars cs).IsScalar := ⟨cs, rfl⟩

/-- A text is encoded if it holds no lone surrogates. -/
theorem exists_encode_iff : (∃ bytes, t.encode = .ok bytes) ↔ t.IsScalar := by
  constructor
  · rintro ⟨bytes, h⟩
    unfold encode characters at h
    split at h
    · cases h
    · rename_i hnone
      exact loneSurrogates?_eq_none_iff.1 hnone
  · rintro ⟨cs, rfl⟩
    exact ⟨_, encode_ofChars cs⟩

end Text

/-! ## Values with a JSON text -/

namespace Value

/-- Can the value be the key of an object? -/
def IsJsonKey : Value → Prop
  | null | bool _ | float _ | nan _ => True
  | int n => Digits.isWritable n
  | text t => t.IsScalar
  | _ => False

/-- Is the value built of what JSON knows? -/
inductive HasJson : Value → Prop
  | null : HasJson null
  | bool (b : Bool) : HasJson (bool b)
  | int {n : Int} (hn : Digits.isWritable n) : HasJson (int n)
  | float (x : Binary64) : HasJson (float x)
  | nan (mark : Nat) : HasJson (nan mark)
  | text {t : Text} (ht : t.IsScalar) : HasJson (text t)
  | list {items : List Value} (hitems : ∀ item ∈ items, HasJson item) : HasJson (list items)
  | tuple {items : List Value} (hitems : ∀ item ∈ items, HasJson item) : HasJson (tuple items)
  | dict {entries : List (Value × Value)} (hkeys : ∀ entry ∈ entries, entry.1.IsJsonKey)
      (hvalues : ∀ entry ∈ entries, HasJson entry.2) : HasJson (dict entries)

/-- Is there a text, and one that is Unicode? -/
def IsUnicode (x : Except SerializeFault Text) : Prop := ∃ t, x = .ok t ∧ t.IsScalar

theorem isUnicode_ok {t : Text} : IsUnicode (.ok t) ↔ t.IsScalar := by simp [IsUnicode]

theorem not_isUnicode_error (fault : SerializeFault) : ¬ IsUnicode (.error fault) := by
  simp [IsUnicode]

/-- What is made of a text is Unicode if the text is and what is made of a Unicode text is. -/
theorem isUnicode_bind {x : Except SerializeFault Text} {f : Text → Except SerializeFault Text}
    {P : Prop} (h : ∀ t, IsUnicode (f t) ↔ t.IsScalar ∧ P) :
    IsUnicode (x >>= f) ↔ IsUnicode x ∧ P := by
  rcases x with fault | t
  · exact iff_of_false (not_isUnicode_error fault) fun hx => not_isUnicode_error fault hx.1
  · exact (h t).trans (and_congr_left' isUnicode_ok.symm)

theorem isScalar_serializeText_iff {t : Text} :
    (serializeText .compact t).IsScalar ↔ t.IsScalar := by
  have hpoint : ∀ c, (∀ d ∈ escapePoint .compact c, d.IsScalar) ↔ c.IsScalar := by
    rintro (c | offset)
    · exact iff_of_true ((Text.isScalar_iff _).1 (Text.isScalar_ofChars _)) ⟨c, rfl⟩
    · simp [escapePoint, Json.Style.compact]
  have hquote : Text.IsScalar [.scalar '"'] := ⟨['"'], rfl⟩
  rw [serializeText, Text.isScalar_cons_iff, Text.isScalar_append_iff, and_iff_left hquote,
    Text.isScalar_iff, Text.isScalar_iff]
  simp only [Text.MadeOf, List.forall_mem_flatMap, hpoint]

theorem isUnicode_serializeInt {n : Int} : IsUnicode (serializeInt n) ↔ Digits.isWritable n := by
  unfold serializeInt
  split
  · rename_i hn
    exact iff_of_true (isUnicode_ok.2 ⟨_, rfl⟩) hn
  · rename_i hn
    exact iff_of_false (not_isUnicode_error _) hn

theorem isUnicode_keyText : ∀ key : Value, IsUnicode key.keyText ↔ key.IsJsonKey
  | text _ => isUnicode_ok
  | int _ => isUnicode_serializeInt
  | float _ | nan _ | bool true | bool false | null =>
    iff_of_true (isUnicode_ok.2 ⟨_, rfl⟩) trivial
  | bytes _ | buffer _ | list _ | tuple _ | set _ | dict _ | bare _ | setter | endless _ | again _
  | secret _ | live _ | record _ _ | kept _ _ => iff_of_false (not_isUnicode_error _) id

theorem hasJson_list_iff {items : List Value} :
    (list items).HasJson ↔ ∀ item ∈ items, item.HasJson :=
  ⟨fun | .list hitems => hitems, .list⟩

theorem hasJson_tuple_iff {items : List Value} :
    (tuple items).HasJson ↔ ∀ item ∈ items, item.HasJson :=
  ⟨fun | .tuple hitems => hitems, .tuple⟩

theorem hasJson_dict_iff {entries : List (Value × Value)} :
    (dict entries).HasJson ↔ ∀ entry ∈ entries, entry.1.IsJsonKey ∧ entry.2.HasJson :=
  ⟨fun | .dict hkeys hvalues => fun entry hmem => ⟨hkeys entry hmem, hvalues entry hmem⟩,
    fun h => .dict (fun entry hmem => (h entry hmem).1) fun entry hmem => (h entry hmem).2⟩

theorem isUnicode_bracketed {x : Except SerializeFault Text} (opening closing : Char) :
    IsUnicode (do return .scalar opening :: ((← x) ++ [.scalar closing])) ↔ IsUnicode x := by
  have hclosing : Text.IsScalar [.scalar closing] := ⟨[closing], rfl⟩
  rw [isUnicode_bind (P := True), and_true]
  intro t
  exact isUnicode_ok.trans <| by
    rw [Text.isScalar_cons_iff, Text.isScalar_append_iff, and_iff_left hclosing, and_true]

theorem isScalar_entry_iff {key value : Text} :
    Text.IsScalar (serializeText .compact key ++ .ofChars Json.Style.compact.keySeparator ++ value)
      ↔ key.IsScalar ∧ value.IsScalar := by
  rw [Text.isScalar_append_iff, Text.isScalar_append_iff, isScalar_serializeText_iff,
    and_iff_left (Text.isScalar_ofChars _)]

mutual

/-- A value has a Unicode text if and only if it is built of what JSON knows. -/
theorem isUnicode_serialize_iff : ∀ v : Value, IsUnicode (v.serialize .compact) ↔ v.HasJson
  | null => iff_of_true (isUnicode_ok.2 ⟨_, rfl⟩) .null
  | bool true => iff_of_true (isUnicode_ok.2 ⟨_, rfl⟩) (.bool true)
  | bool false => iff_of_true (isUnicode_ok.2 ⟨_, rfl⟩) (.bool false)
  | int n => by
    rw [serialize, isUnicode_serializeInt]
    exact ⟨.int, fun | .int hn => hn⟩
  | float x => iff_of_true (isUnicode_ok.2 ⟨_, rfl⟩) (.float x)
  | nan mark => iff_of_true (isUnicode_ok.2 ⟨_, rfl⟩) (.nan mark)
  | text t => by
    rw [serialize, isUnicode_ok, isScalar_serializeText_iff]
    exact ⟨.text, fun | .text ht => ht⟩
  | list items => by
    rw [serialize, isUnicode_bracketed, isUnicode_serializeItems_iff items, hasJson_list_iff]
  | tuple items => by
    rw [serialize, isUnicode_bracketed, isUnicode_serializeItems_iff items, hasJson_tuple_iff]
  | dict entries => by
    rw [serialize, isUnicode_bracketed, isUnicode_serializeEntries_iff entries, hasJson_dict_iff]
  | bytes _ | buffer _ | set _ | bare _ | setter | endless _ | again _ | secret _ | live _
  | record _ _ | kept _ _ => iff_of_false (not_isUnicode_error _) nofun

theorem isUnicode_serializeItems_iff : ∀ items : List Value,
    IsUnicode (serializeItems .compact items) ↔ ∀ item ∈ items, item.HasJson
  | [] => iff_of_true (isUnicode_ok.2 ⟨[], rfl⟩) nofun
  | [item] => by
    rw [serializeItems, isUnicode_serialize_iff item, List.forall_mem_singleton]
  | item :: next :: items => by
    have hothers : ∀ first, IsUnicode (do
        let others ← serializeItems .compact (next :: items)
        return first ++ .ofChars Json.Style.compact.itemSeparator ++ others)
        ↔ first.IsScalar ∧ IsUnicode (serializeItems .compact (next :: items)) := by
      intro first
      rw [and_comm]
      refine isUnicode_bind fun others => isUnicode_ok.trans ?_
      rw [Text.isScalar_append_iff, Text.isScalar_append_iff,
        and_iff_left (Text.isScalar_ofChars _), and_comm]
    refine (isUnicode_bind hothers).trans ?_
    rw [isUnicode_serialize_iff item, isUnicode_serializeItems_iff (next :: items),
      ← List.forall_mem_cons]

theorem isUnicode_serializeEntries_iff : ∀ entries : List (Value × Value),
    IsUnicode (serializeEntries .compact entries)
      ↔ ∀ entry ∈ entries, entry.1.IsJsonKey ∧ entry.2.HasJson
  | [] => iff_of_true (isUnicode_ok.2 ⟨[], rfl⟩) nofun
  | [(key, v)] => by
    have hvalue : ∀ keyText, IsUnicode (do
        let value ← v.serialize .compact
        return serializeText .compact keyText ++ .ofChars Json.Style.compact.keySeparator ++ value)
        ↔ keyText.IsScalar ∧ IsUnicode (v.serialize .compact) := by
      intro keyText
      rw [and_comm]
      exact isUnicode_bind fun value => isUnicode_ok.trans (isScalar_entry_iff.trans and_comm)
    refine (isUnicode_bind hvalue).trans ?_
    rw [isUnicode_keyText key, isUnicode_serialize_iff v, List.forall_mem_singleton]
  | (key, v) :: next :: entries => by
    -- From the inside out: the others are written inside of the value, and that inside of the key.
    have hothers : ∀ keyText value, IsUnicode (do
        let others ← serializeEntries .compact (next :: entries)
        return serializeText .compact keyText ++ .ofChars Json.Style.compact.keySeparator ++ value
          ++ .ofChars Json.Style.compact.itemSeparator ++ others)
        ↔ value.IsScalar
          ∧ keyText.IsScalar ∧ IsUnicode (serializeEntries .compact (next :: entries)) := by
      intro keyText value
      rw [← and_assoc, and_comm]
      refine isUnicode_bind fun others => isUnicode_ok.trans ?_
      rw [Text.isScalar_append_iff, Text.isScalar_append_iff,
        and_iff_left (Text.isScalar_ofChars _), isScalar_entry_iff, and_comm,
        and_comm (a := keyText.IsScalar)]
    have hvalue : ∀ keyText, IsUnicode (do
        let value ← v.serialize .compact
        let others ← serializeEntries .compact (next :: entries)
        return serializeText .compact keyText ++ .ofChars Json.Style.compact.keySeparator ++ value
          ++ .ofChars Json.Style.compact.itemSeparator ++ others)
        ↔ keyText.IsScalar ∧ IsUnicode (v.serialize .compact)
          ∧ IsUnicode (serializeEntries .compact (next :: entries)) := by
      intro keyText
      rw [and_left_comm]
      exact isUnicode_bind (hothers keyText)
    refine (isUnicode_bind hvalue).trans ?_
    rw [isUnicode_keyText key, isUnicode_serialize_iff v,
      isUnicode_serializeEntries_iff (next :: entries), ← and_assoc,
      List.forall_mem_cons (a := (key, v)) (l := next :: entries)]

end

end Value

/-! ## What is captured -/

namespace Secret

open Value

variable {v : Value} {s : Secret}

/-- What is built of what JSON knows is captured as the UTF-8 form of its text. -/
theorem capture_of_hasJson (h : v.HasJson) (hnull : v ≠ .null) :
    ∃ cs, v.serialize .compact = .ok (.ofChars cs)
      ∧ capture v = .ok ⟨(String.ofList cs).toUTF8⟩ := by
  obtain ⟨_, hcs, cs, rfl⟩ := (isUnicode_serialize_iff v).2 h
  refine ⟨cs, hcs, ?_⟩
  -- Nothing with a JSON text is a secret or a byte string, which would be taken as they are.
  cases h <;> simp_all [capture, Text.encode_ofChars]

theorem hasJson_of_capture (h : capture v = .ok s) :
    v = .secret s ∨ v = .bytes s.payload ∨ v = .buffer s.payload ∨ (v ≠ .null ∧ v.HasJson) := by
  unfold capture at h
  split at h
  · cases h
  · cases h
    exact .inl rfl
  · cases h
    exact .inr (.inl rfl)
  · cases h
    exact .inr (.inr (.inl rfl))
  · rename_i hnull _ _ _
    split at h
    · cases h
    · rename_i t ht
      split at h
      · cases h
      · rename_i bytes hbytes
        exact .inr (.inr (.inr ⟨hnull, (isUnicode_serialize_iff v).1
          ⟨t, ht, Text.exists_encode_iff.1 ⟨bytes, hbytes⟩⟩⟩))

theorem exists_capture_iff (v : Value) : (∃ s, capture v = .ok s) ↔
    (∃ s, v = .secret s) ∨ (∃ b, v = .bytes b ∨ v = .buffer b) ∨ (v ≠ .null ∧ v.HasJson) := by
  constructor
  · rintro ⟨s, h⟩
    rcases hasJson_of_capture h with hsecret | hbytes | hbuffer | hjson
    · exact .inl ⟨s, hsecret⟩
    · exact .inr (.inl ⟨s.payload, .inl hbytes⟩)
    · exact .inr (.inl ⟨s.payload, .inr hbuffer⟩)
    · exact .inr (.inr hjson)
  · rintro (⟨s, rfl⟩ | ⟨b, rfl | rfl⟩ | ⟨hnull, hjson⟩)
    · exact ⟨s, rfl⟩
    · exact ⟨⟨b⟩, rfl⟩
    · exact ⟨⟨b⟩, rfl⟩
    · obtain ⟨cs, -, hcapture⟩ := capture_of_hasJson hjson hnull
      exact ⟨_, hcapture⟩

/-- What a value is captured as. -/
theorem payload_of_capture (h : capture v = .ok s) :
    v = .secret s ∨ v = .bytes s.payload ∨ v = .buffer s.payload
      ∨ ∃ cs, v.serialize .compact = .ok (.ofChars cs) ∧ Utf8.decode? s.payload = some cs := by
  rcases hasJson_of_capture h with hsecret | hbytes | hbuffer | ⟨hnull, hjson⟩
  · exact .inl hsecret
  · exact .inr (.inl hbytes)
  · exact .inr (.inr (.inl hbuffer))
  · obtain ⟨cs, hcs, hcapture⟩ := capture_of_hasJson hjson hnull
    rw [hcapture] at h
    cases h
    exact .inr (.inr (.inr ⟨cs, hcs, Utf8.decode?_toUTF8 cs⟩))

end Secret

end SearchConfig
