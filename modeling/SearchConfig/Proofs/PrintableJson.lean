import SearchConfig.Proofs.Decoding
import SearchConfig.Proofs.ReadBack

/-!
# Texts in one line of JSON

A character that is none of the printable ones of ASCII is escaped by printable ones where only
ASCII is written (`Json.arePrintable_escape`). So an object whose values are texts is written as one
line, whatever stands in the texts, and the line reads back as that object (`Value.exists_line`).
-/

namespace SearchConfig

theorem Text.ofChars_append (cs ds : List Char) : ofChars (cs ++ ds) = ofChars cs ++ ofChars ds :=
  List.map_append

/-- Is a text made of the printable characters of ASCII? No line ends inside of such a text. -/
def Text.IsPrintable (t : Text) : Prop := ∀ c ∈ t, 0x20 ≤ c.value ∧ c.value ≤ 0x7E

namespace Json

/-- Are characters printable ones of ASCII? -/
def ArePrintable (cs : List Char) : Prop := ∀ c ∈ cs, 0x20 ≤ c.toNat ∧ c.toNat ≤ 0x7E

instance (cs : List Char) : Decidable (ArePrintable cs) := List.decidableBAll _ cs

theorem isPrintable_ofChars {cs : List Char} :
    (Text.ofChars cs).IsPrintable ↔ ArePrintable cs := List.forall_mem_map

theorem arePrintable_append {cs ds : List Char} :
    ArePrintable (cs ++ ds) ↔ ArePrintable cs ∧ ArePrintable ds := List.forall_mem_append

theorem arePrintable_cons {c : Char} {cs : List Char} :
    ArePrintable (c :: cs) ↔ (0x20 ≤ c.toNat ∧ c.toNat ≤ 0x7E) ∧ ArePrintable cs :=
  List.forall_mem_cons

theorem arePrintable_unitEscape {u : Nat} (h : u < 0x10000) : ArePrintable (unitEscape u) := by
  have hdigit : ∀ d < 16, 0x20 ≤ d.digitChar.toNat ∧ d.digitChar.toNat ≤ 0x7E := by decide
  simp only [unitEscape, Digits.hex_four h, arePrintable_cons]
  exact ⟨by decide, by decide, hdigit _ (by omega), hdigit _ (by omega), hdigit _ (by omega),
    hdigit _ (by omega), by decide⟩

theorem arePrintable_escape (c : Char) : ArePrintable (escape .spaced c) := by
  unfold escape
  -- Seven characters have an escape of their own.
  iterate 7 refine iteInduction (fun _ => by decide) fun _ => ?_
  refine iteInduction (fun hcontrol => ?_) fun hcontrol => iteInduction (fun hascii => ?_) fun _ =>
    iteInduction (fun hunit => ?_) fun hpair => ?_
  · exact arePrintable_unitEscape (Nat.lt_trans hcontrol (by decide))
  · have hbelow : c < '\x7f' := by simpa [Style.spaced] using hascii
    exact List.forall_mem_singleton.2 ⟨Nat.not_lt.1 hcontrol, Nat.le_of_lt_succ hbelow⟩
  · exact arePrintable_unitEscape hunit
  · have hlimit : c.toNat < 0x110000 := by
      rcases c.valid with hv | hv
      · exact Nat.lt_trans hv (by decide)
      · exact hv.2
    exact arePrintable_append.2
      ⟨arePrintable_unitEscape (by omega), arePrintable_unitEscape (by omega)⟩

theorem arePrintable_printString (s : List Char) : ArePrintable (printString .spaced s) := by
  rw [printString, arePrintable_cons, arePrintable_append]
  refine ⟨by decide, fun c hc => ?_, by decide⟩
  obtain ⟨d, -, hd⟩ := List.mem_flatMap.1 hc
  exact arePrintable_escape d c hd

/-- The object whose values are strings. -/
def ofStrings (entries : List (List Char × List Char)) : Json :=
  .object (entries.map fun (key, s) => (key, .string s))

/-- The object whose values are the texts as strings. -/
def ofTexts (entries : List (Text × Text)) : Json :=
  .object (entries.map fun (key, t) => (key.legible, .string t.legible))

theorem arePrintable_printEntries : ∀ entries : List (List Char × List Char),
    ArePrintable (printEntries .spaced (entries.map fun (key, s) => (key, .string s)))
  | [] => by decide
  | [(key, s)] => by
    simp only [List.map_cons, List.map_nil, printEntries, print, arePrintable_append]
    exact ⟨⟨arePrintable_printString key, by decide⟩, arePrintable_printString s⟩
  | (key, s) :: entry :: entries => by
    have hothers := arePrintable_printEntries (entry :: entries)
    simp only [List.map_cons, printEntries, print, arePrintable_append] at hothers ⊢
    exact ⟨⟨⟨⟨arePrintable_printString key, by decide⟩, arePrintable_printString s⟩, by decide⟩,
      hothers⟩

theorem arePrintable_print_ofStrings (entries : List (List Char × List Char)) :
    ArePrintable (print .spaced (ofStrings entries)) := by
  rw [ofStrings, print, arePrintable_cons, arePrintable_append]
  exact ⟨by decide, arePrintable_printEntries entries, by decide⟩

theorem Style.spaced_isReadable : Style.spaced.IsReadable :=
  ⟨⟨[' '], rfl, List.forall_mem_singleton.2 rfl⟩, ⟨[' '], rfl, List.forall_mem_singleton.2 rfl⟩⟩

theorem each_readsBack_ofStrings : ∀ entries : List (List Char × List Char),
    Each ReadsBack (ofStrings entries)
  | [] => trivial
  | _ :: entries => ⟨trivial, each_readsBack_ofStrings entries⟩

theorem depth_ofStrings : ∀ entries : List (List Char × List Char), depth (ofStrings entries) ≤ 1
  | [] => Nat.zero_le 1
  | _ :: entries => Nat.max_le.2 ⟨le_rfl, depth_ofStrings entries⟩

theorem ofBytes?_print_ofStrings (entries : List (List Char × List Char)) :
    ofBytes? (String.ofList (print .spaced (ofStrings entries))).toUTF8
      = some (ofStrings entries) := by
  rw [ofBytes?, Utf8.decode?_toUTF8]
  exact read?_print Style.spaced_isReadable (each_readsBack_ofStrings entries)
    ((depth_ofStrings entries).trans (by decide))

end Json

namespace Value

theorem exists_strings : ∀ {entries : List (Text × Text)},
    (∀ entry ∈ entries, entry.1.IsScalar ∧ entry.2.IsScalar) →
    ∃ strings : List (List Char × List Char), entries = strings.map (Prod.map .ofChars .ofChars)
  | [], _ => ⟨[], rfl⟩
  | (key, t) :: entries, h => by
    obtain ⟨⟨key, rfl⟩, ⟨s, rfl⟩⟩ := h (key, t) List.mem_cons_self
    obtain ⟨strings, rfl⟩ := exists_strings fun entry hmem => h entry (List.mem_cons_of_mem _ hmem)
    exact ⟨(key, s) :: strings, rfl⟩

theorem serializeText_ofChars (style : Json.Style) (cs : List Char) :
    serializeText style (.ofChars cs) = .ofChars (Json.printString style cs) := by
  simp [serializeText, Json.printString, Text.ofChars, List.flatMap_map, List.map_flatMap,
    escapePoint]

theorem serializeEntries_ofChars (style : Json.Style) : ∀ entries : List (List Char × List Char),
    serializeEntries style (entries.map fun (key, s) => (text (.ofChars key), text (.ofChars s)))
      = .ok (.ofChars (Json.printEntries style (entries.map fun (key, s) => (key, .string s))))
  | [] => rfl
  | [(key, s)] => by
    have hentry : serializeEntries style [(text (.ofChars key), text (.ofChars s))]
        = .ok (serializeText style (.ofChars key) ++ .ofChars style.keySeparator
          ++ serializeText style (.ofChars s)) := rfl
    rw [serializeText_ofChars, serializeText_ofChars, ← Text.ofChars_append,
      ← Text.ofChars_append] at hentry
    exact hentry
  | (key, s) :: entry :: entries => by
    have hothers := serializeEntries_ofChars style (entry :: entries)
    simp only [List.map_cons] at hothers
    simp only [List.map_cons, serializeEntries, keyText, serialize, hothers, bind, Except.bind,
      pure, Except.pure, serializeText_ofChars, Json.printEntries, Json.print, Text.ofChars_append]

theorem serialize_ofChars (style : Json.Style) (entries : List (List Char × List Char)) :
    (dict (entries.map fun (key, s) => (text (.ofChars key), text (.ofChars s)))).serialize style
      = .ok (.ofChars (Json.print style (.ofStrings entries))) := by
  rw [serialize, serializeEntries_ofChars, Json.ofStrings, Json.print, ← List.cons_append,
    Text.ofChars_append]
  rfl

/-- An object of texts is written in one line of ASCII, which reads back as that object. -/
theorem exists_line {entries : List (Text × Text)}
    (h : ∀ entry ∈ entries, entry.1.IsScalar ∧ entry.2.IsScalar) :
    ∃ line : Text,
      (dict (entries.map fun (key, t) => (text key, text t))).serialize .spaced = .ok line
        ∧ line.IsPrintable
        ∧ ∃ bytes, line.encode = .ok bytes ∧ Json.ofBytes? bytes = some (.ofTexts entries) := by
  obtain ⟨strings, rfl⟩ := exists_strings h
  have hstrings : Json.ofTexts (strings.map (Prod.map .ofChars .ofChars)) = .ofStrings strings := by
    simp [Json.ofTexts, Json.ofStrings, Function.comp_def, Text.legible_ofChars]
  refine ⟨.ofChars (Json.print .spaced (.ofStrings strings)), ?_,
    Json.isPrintable_ofChars.2 (Json.arePrintable_print_ofStrings strings), _,
    Text.encode_ofChars _, ?_⟩
  · rw [List.map_map]
    exact serialize_ofChars .spaced strings
  · rw [hstrings]
    exact Json.ofBytes?_print_ofStrings strings

end Value

end SearchConfig
