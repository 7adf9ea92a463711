import SearchConfig.Proofs.FieldLookup
import SearchConfig.Proofs.ReadBack
import SearchConfig.Proofs.ReplacedFiles

/-!
# Fields that stand for their absence

A field that is left out may as well be null or have the value that its absence stands for. Entries
that are padded with such fields find every other field as before (`find?_keep`), so each of them is
decoded to the same (`optional_padded`), and so is the whole (`Config.decode_padded`), with any
fields added to any of its objects. Hence padding a file changes nothing about loading it
(`load_padded`).
-/

namespace SearchConfig

open Json Schema

/-- A field that may be left out, and the value that its absence stands for. It is null if no other
value does. -/
structure Blank where
  field : FieldName
  zero : Json

/-- Has an entry a name of the field, and is it null or what the absence stands for? -/
def Blank.Fits (blank : Blank) (entry : List Char × Json) : Prop :=
  blank.field.Names (.ofChars entry.1) ∧ (entry.2 = .null ∨ entry.2 = blank.zero)

/-- Are the second entries the first with blank fields added that are absent from an object? -/
inductive Json.PaddedEntries (blanks : List Blank) (inside : Text → Json → Json → Prop)
    (object : List (List Char × Json)) :
    List (List Char × Json) → List (List Char × Json) → Prop
  | nil : PaddedEntries blanks inside object [] []
  | keep {key : List Char} {v w : Json} {entries entries' : List (List Char × Json)}
      (hinside : inside (.ofChars key) v w)
      (hrest : PaddedEntries blanks inside object entries entries') :
      PaddedEntries blanks inside object ((key, v) :: entries) ((key, w) :: entries')
  | add {blank : Blank} {entry : List Char × Json} {entries entries' : List (List Char × Json)}
      (hblank : blank ∈ blanks) (hfits : blank.Fits entry) (habsent : blank.field.IsAbsent object)
      (hrest : PaddedEntries blanks inside object entries entries') :
      PaddedEntries blanks inside object entries (entry :: entries')

/-- Is the second value the first with blank fields added to it, and its entries padded inside? -/
def Json.Padded (blanks : List Blank) (inside : Text → Json → Json → Prop) (v w : Json) : Prop :=
  v = w ∨ ∃ entries entries', v = .object entries ∧ w = .object entries'
    ∧ PaddedEntries blanks inside entries entries entries'

def UrlPattern.blanks : List Blank := [
  ⟨baseUrlField, .string []⟩,
  ⟨anchorField, .string []⟩]

def UrlPattern.Padded : Json → Json → Prop := Json.Padded blanks fun _ v w => v = w

namespace RepositoryOf

def blanks : List Blank := [
  ⟨msBetweenPollField, .int 0⟩,
  ⟨vcsField, .string []⟩,
  ⟨vcsConfigField, .null⟩,
  ⟨urlPatternField, .null⟩,
  ⟨excludeDotFilesField, .bool false⟩,
  ⟨enablePollUpdatesField, .null⟩,
  ⟨enablePushUpdatesField, .null⟩]

def Padded : Json → Json → Prop :=
  Json.Padded blanks fun name v w => v = w ∨ urlPatternField.Names name ∧ UrlPattern.Padded v w

end RepositoryOf

namespace ConfigOf

def blanks : List Blank := [
  ⟨dbPathField, .string []⟩,
  ⟨titleField, .string []⟩,
  ⟨reposField, .object []⟩,
  ⟨maxConcurrentIndexersField, .int 0⟩,
  ⟨healthCheckUriField, .string []⟩]

/-- In the map of the repositories nothing is added but to the repositories. -/
def PaddedRepos : Json → Json → Prop := Json.Padded [] fun _ => RepositoryOf.Padded

def Padded : Json → Json → Prop :=
  Json.Padded blanks fun name v w => v = w ∨ reposField.Names name ∧ PaddedRepos v w

end ConfigOf

section Entries

variable {blanks : List Blank} {inside : Text → Json → Json → Prop}
  {object entries entries' : List (List Char × Json)} {name : Text}

/-- What is found under a name that no added field has is what was found there, padded. -/
theorem named?_keep (h : PaddedEntries blanks inside object entries entries')
    (hname : ∀ blank ∈ blanks, blank.field.Names name → ¬ blank.field.IsAbsent object) :
    Option.Rel (inside name) (named? name (keyed entries)) (named? name (keyed entries')) := by
  induction h with
  | nil => exact .none
  | @keep key v w _ _ hinside _ ih =>
    rw [named?_cons, named?_cons]
    refine rel_or ih ?_
    split
    · rename_i hkey
      exact .some (hkey ▸ hinside)
    · exact .none
  | @add blank entry _ _ hblank hfits habsent _ ih =>
    have hkey : .ofChars entry.1 ≠ name := fun heq =>
      hname blank hblank (heq ▸ hfits.1) habsent
    rw [named?_cons, if_neg hkey, Option.or_none]
    exact ih

/-- What is found under a name that was absent before is blank. -/
theorem named?_blank (h : PaddedEntries blanks inside object entries entries')
    (hname : named? name (keyed entries) = none) {w : Json}
    (hw : named? name (keyed entries') = some w) :
    ∃ blank ∈ blanks, blank.field.Names name ∧ (w = .null ∨ w = blank.zero) := by
  induction h with
  | nil => cases hw
  | @keep key _ _ _ _ _ _ ih =>
    rw [named?_cons, Option.or_eq_none_iff] at hname
    have hkey : .ofChars key ≠ name := fun heq => by simp [heq] at hname
    rw [named?_cons, if_neg hkey, Option.or_none] at hw
    exact ih hname.1 hw
  | @add blank entry _ _ hblank hfits _ _ ih =>
    rw [named?_cons, Option.or_eq_some_iff] at hw
    rcases hw with hw | ⟨-, hw⟩
    · exact ih hname hw
    · obtain ⟨rfl, heq⟩ := Option.ite_none_right_eq_some.1 hw
      obtain rfl := Option.some.inj heq
      exact ⟨blank, hblank, hfits⟩

variable {β : Type} {field : FieldName}

/-- Has a field no name in common with those of the blanks, its own excepted? -/
def FieldName.IsApart (field : FieldName) (blanks : List Blank) : Prop :=
  ∀ blank ∈ blanks, blank.field = field
    ∨ ¬ blank.field.Names field.outer ∧ ¬ blank.field.Names field.inner

instance (field : FieldName) (blanks : List Blank) : Decidable (field.IsApart blanks) :=
  inferInstanceAs (Decidable (∀ blank ∈ blanks, _))

theorem FieldName.IsApart.eq (hfield : field.IsApart blanks) {blank : Blank}
    (hblank : blank ∈ blanks) (hname : field.Names name) (h : blank.field.Names name) :
    blank.field = field := by
  rcases hfield blank hblank with heq | ⟨houter, hinner⟩
  · exact heq
  · rcases hname with rfl | rfl
    · exact absurd h houter
    · exact absurd h hinner

theorem find?_keep (h : PaddedEntries blanks inside entries entries entries')
    (hfield : field.IsApart blanks) {v : Json} (hv : find? field (keyed entries) = some (name, v)) :
    field.Names name ∧ ∃ w, find? field (keyed entries') = some (name, w) ∧ inside name v w := by
  have hrel := find?_rel inside fun name hname => named?_keep h fun blank hblank hnames habsent => by
    rw [hfield.eq hblank hname hnames, isAbsent_iff, hv] at habsent
    cases habsent
  rw [hv] at hrel
  generalize find? field (keyed entries') = found at hrel ⊢
  cases hrel with
  | @some _ found hrel => exact ⟨hrel.1, found.2, congrArg some (Prod.ext hrel.2.1 rfl), hrel.2.2⟩

theorem find?_blank (h : PaddedEntries blanks inside entries entries entries')
    (hfield : field.IsApart blanks) (hnone : find? field (keyed entries) = none) {w : Json}
    (hw : find? field (keyed entries') = some (name, w)) :
    ∃ blank ∈ blanks, blank.field = field ∧ (w = .null ∨ w = blank.zero) := by
  have hnames : ∀ name, field.Names name → named? name (keyed entries) = none := fun name hname =>
    named?_eq_none_iff.2 fun entry hentry heq =>
      isAbsent_iff.2 hnone entry hentry (heq ▸ hname)
  have hnamed : field.Names name ∧ named? name (keyed entries') = some w := by
    unfold find? at hw
    split at hw
    · obtain ⟨rfl, rfl⟩ := Prod.mk.inj (Option.some.inj hw)
      exact ⟨.inl rfl, ‹_›⟩
    · obtain ⟨v, hv, heq⟩ := Option.map_eq_some_iff.1 hw
      obtain ⟨rfl, rfl⟩ := Prod.mk.inj heq
      exact ⟨.inr rfl, hv⟩
  obtain ⟨blank, hblank, hblankNames, hfits⟩ := named?_blank h (hnames name hnamed.1) hnamed.2
  exact ⟨blank, hblank, hfield.eq hblank hnamed.1 hblankNames, hfits⟩

theorem optional_padded (h : PaddedEntries blanks inside entries entries entries')
    (hfield : field.IsApart blanks) {absent : β} {read : Json → Decoded β}
    (hread : ∀ name v w, field.Names name → inside name v w → read v = read w)
    (hblank : ∀ blank ∈ blanks, blank.field = field →
      read .null = .accepted absent ∧ read blank.zero = .accepted absent) :
    Schema.optional field absent read (keyed entries')
      = Schema.optional field absent read (keyed entries) := by
  unfold Schema.optional
  rcases hv : find? field (keyed entries) with _ | ⟨name, v⟩
  · rcases hw : find? field (keyed entries') with _ | ⟨name, w⟩
    · rfl
    · obtain ⟨blank, hmem, hself, hfits⟩ := find?_blank h hfield hv hw
      have haccepted : read w = .accepted absent := by
        rcases hfits with rfl | rfl
        · exact (hblank blank hmem hself).1
        · exact (hblank blank hmem hself).2
      simp only [haccepted, Decoded.under]
  · obtain ⟨hname, w, hw, hinside⟩ := find?_keep h hfield hv
    simp only [hw, hread name v w hname hinside]

theorem required_padded (h : PaddedEntries blanks inside entries entries entries')
    (hfield : ∀ blank ∈ blanks, ¬ blank.field.Names field.outer ∧ ¬ blank.field.Names field.inner)
    {read : Json → Decoded β}
    (hread : ∀ name v w, field.Names name → inside name v w → read v = read w) :
    required field read (keyed entries') = required field read (keyed entries) := by
  have hapart : field.IsApart blanks := fun blank hblank => .inr (hfield blank hblank)
  unfold required
  rcases hv : find? field (keyed entries) with _ | ⟨name, v⟩
  · rcases hw : find? field (keyed entries') with _ | ⟨name, w⟩
    · rfl
    · obtain ⟨blank, hmem, rfl, -⟩ := find?_blank h hapart hv hw
      exact absurd (.inl rfl) (hfield blank hmem).1
  · obtain ⟨hname, w, hw, hinside⟩ := find?_keep h hapart hv
    simp only [hw, hread name v w hname hinside]

/-- The values of a map to whose own entries nothing is added are read as the same. -/
theorem mapValues_padded {read : Json → Decoded β}
    (hread : ∀ name v w, inside name v w → read v = read w)
    (h : PaddedEntries [] inside object entries entries') :
    Entries.mapValues read entries' = Entries.mapValues read entries := by
  induction h with
  | nil => rfl
  | keep hinside _ ih =>
    have hcons : ∀ key v es, Entries.mapValues read ((key, v) :: es)
        = ((key : List Char), read v) :: Entries.mapValues read es := fun _ _ _ => rfl
    rw [hcons, hcons, hread _ _ _ hinside, ih]
  | add hblank => cases hblank

end Entries

theorem Json.Padded.decode_eq {β : Type} {blanks : List Blank} {inside : Text → Json → Json → Prop}
    {v w : Json} {decode : Json → Decoded β} (h : Padded blanks inside v w)
    (hobject : ∀ entries entries', PaddedEntries blanks inside entries entries entries' →
      decode (.object entries') = decode (.object entries)) : decode w = decode v := by
  rcases h with rfl | ⟨entries, entries', rfl, rfl, h⟩
  · rfl
  · exact hobject entries entries' h

theorem UrlPattern.decode_padded {v w : Json} (h : UrlPattern.Padded v w) :
    decode w = decode v := by
  refine h.decode_eq fun entries entries' h => ?_
  have htext : ∀ field : FieldName, field.IsApart blanks →
      (∀ blank ∈ blanks, blank.field = field →
        text Json.null = .accepted [] ∧ text blank.zero = .accepted []) →
      Schema.optional field [] text (keyed entries')
        = Schema.optional field [] text (keyed entries) := fun field hfield hblank =>
    optional_padded h hfield (fun _ _ _ _ heq => congrArg _ heq) hblank
  simp only [decode, record_object]
  rw [htext baseUrlField (by decide) (by decide), htext anchorField (by decide) (by decide)]

theorem nullable_padded {v w : Json} (h : UrlPattern.Padded v w) :
    nullable UrlPattern.decode w = nullable UrlPattern.decode v := by
  have hdecode := UrlPattern.decode_padded h
  rcases h with rfl | ⟨entries, entries', rfl, rfl, -⟩
  · rfl
  · exact congrArg (Decoded.map some) hdecode

theorem read_of_inside {β : Type} {read : Json → Decoded β} {field other : FieldName}
    {padded : Json → Json → Prop} (h : ¬ other.Names field.outer ∧ ¬ other.Names field.inner)
    (name : Text) (v w : Json) (hname : field.Names name)
    (hinside : v = w ∨ other.Names name ∧ padded v w) : read v = read w := by
  rcases hinside with rfl | ⟨hother, -⟩
  · rfl
  · rcases hname with rfl | rfl
    · exact absurd hother h.1
    · exact absurd hother h.2

theorem optional_padded_of_ne {β : Type} {blanks : List Blank} {other : FieldName}
    {padded : Json → Json → Prop} {entries entries' : List (List Char × Json)}
    (h : PaddedEntries blanks (fun name v w => v = w ∨ other.Names name ∧ padded v w) entries
      entries entries') (field : FieldName) (absent : β) (read : Json → Decoded β)
    (hfield : field.IsApart blanks) (hother : ¬ other.Names field.outer ∧ ¬ other.Names field.inner)
    (hblank : ∀ blank ∈ blanks, blank.field = field →
      read .null = .accepted absent ∧ read blank.zero = .accepted absent) :
    Schema.optional field absent read (keyed entries')
      = Schema.optional field absent read (keyed entries) :=
  optional_padded h hfield (read_of_inside hother) hblank

theorem Repository.decode_padded {v w : Json} (h : RepositoryOf.Padded v w) :
    decode w = decode v := by
  refine h.decode_eq fun entries entries' h => ?_
  have hurl : required RepositoryOf.urlField text (keyed entries')
      = required RepositoryOf.urlField text (keyed entries) :=
    required_padded h (by decide) (read_of_inside (by decide))
  have hpattern : Schema.optional RepositoryOf.urlPatternField none (nullable UrlPattern.decode)
      (keyed entries') = Schema.optional RepositoryOf.urlPatternField none
        (nullable UrlPattern.decode) (keyed entries) := by
    refine optional_padded h (by decide) ?_ (by decide)
    rintro name v w - (rfl | ⟨-, hpadded⟩)
    · rfl
    · exact (nullable_padded hpadded).symm
  simp only [decode, RepositoryOf.decode, record_object]
  rw [hurl, hpattern]
  simp (disch := decide) only [optional_padded_of_ne h]

theorem nullableMap_padded {v w : Json} (h : ConfigOf.PaddedRepos v w) :
    nullableMap Repository.decode w = nullableMap Repository.decode v := by
  rcases h with rfl | ⟨entries, entries', rfl, rfl, h⟩
  · rfl
  · have hread : ∀ (name : Text) (v w : Json), RepositoryOf.Padded v w →
        Repository.decode v = Repository.decode w :=
      fun _ _ _ hpadded => (Repository.decode_padded hpadded).symm
    exact nullableMap_congr (mapValues_padded hread h)

/-- Padding leaves what is decoded as it is, problems included. -/
theorem Config.decode_padded {v w : Json} (h : ConfigOf.Padded v w) : decode w = decode v := by
  refine h.decode_eq fun entries entries' h => ?_
  have hrepos : Schema.optional ConfigOf.reposField [] (nullableMap Repository.decode)
      (keyed entries') = Schema.optional ConfigOf.reposField [] (nullableMap Repository.decode)
        (keyed entries) := by
    refine optional_padded h (by decide) ?_ ?_
    · rintro name v w - (rfl | ⟨-, hpadded⟩)
      · rfl
      · exact (nullableMap_padded hpadded).symm
    · decide
  simp only [decode, ConfigOf.decode, record_object]
  rw [hrepos]
  simp (disch := decide) only [optional_padded_of_ne h]

/-- Padding a file changes nothing about loading it and about what is logged of that. -/
theorem Config.load_padded {files : Files} {place : List Text} {a b : ByteArray} {v w : Json}
    (hat : files.at? place = some (.file a)) (hv : ofBytes? a = some v) (hw : ofBytes? b = some w)
    (h : ConfigOf.Padded v w) :
    let files' := files.plant place (.file b)
    Decoded.ofBytes decode b = Decoded.ofBytes decode a
      ∧ ∀ name, load files' name = load files name
        ∧ loadRecords name (load files' name) = loadRecords name (load files name) := by
  intro files'
  have hdecode : Decoded.ofBytes decode b = Decoded.ofBytes decode a := by
    rw [Decoded.ofBytes, hw, Decoded.ofBytes, hv]
    exact decode_padded h
  have hload : ∀ name, load files' name = load files name := fun name =>
    (load_plant_of_decode hat (congrArg Decoded.outcome hdecode.symm) name).symm
  exact ⟨hdecode, fun name => ⟨hload name, by rw [hload]⟩⟩

/-- Fields are added at all three levels, null and zero, under outer names and inner ones. -/
theorem Config.load_padded_nested :
    let v : Json := .object [("repos".toList, .object [("r".toList, .object [
      ("url".toList, .string ['u']), ("url-pattern".toList, .object [])])])]
    let w : Json := .object [("title".toList, .null), ("repos".toList, .object [("r".toList, .object [
      ("vcs".toList, .string []), ("url".toList, .string ['u']),
      ("url-pattern".toList, .object [("anchor".toList, .string []), ("base_url".toList, .null)]),
      ("ms_between_poll".toList, .int 0)])]), ("max-concurrent-indexers".toList, .int 0)]
    ConfigOf.Padded v w
      ∧ load (.single "config.json" w.toBytes) "config.json"
        = load (.single "config.json" v.toBytes) "config.json" := by
  intro v w
  have hv : ofBytes? v.toBytes = some v :=
    ofBytes?_toBytes (by simp [v, Each, EachEntry, ReadsBack]) (by decide)
  have hw : ofBytes? w.toBytes = some w := by
    refine ofBytes?_toBytes ?_ (by decide)
    simp [w, Each, EachEntry, ReadsBack, Digits.isWritable]
    decide
  have hpattern : UrlPattern.Padded (.object [])
      (.object [("anchor".toList, .string []), ("base_url".toList, .null)]) := by
    refine .inr ⟨_, _, rfl, rfl, ?_⟩
    refine .add (.tail _ (.head _)) ⟨by decide, .inr rfl⟩ (by decide) ?_
    exact .add (.head _) ⟨by decide, .inl rfl⟩ (by decide) .nil
  have hrepository : RepositoryOf.Padded
      (.object [("url".toList, .string ['u']), ("url-pattern".toList, .object [])])
      (.object [("vcs".toList, .string []), ("url".toList, .string ['u']), ("url-pattern".toList,
        .object [("anchor".toList, .string []), ("base_url".toList, .null)]),
        ("ms_between_poll".toList, .int 0)]) := by
    refine .inr ⟨_, _, rfl, rfl, ?_⟩
    refine .add (.tail _ (.head _)) ⟨by decide, .inr rfl⟩ (by decide) ?_
    refine .keep (.inl rfl) (.keep (.inr ⟨by decide, hpattern⟩) ?_)
    exact .add (.head _) ⟨by decide, .inr rfl⟩ (by decide) .nil
  have hpadded : ConfigOf.Padded v w := by
    refine .inr ⟨_, _, rfl, rfl, ?_⟩
    refine .add (.tail _ (.head _)) ⟨by decide, .inl rfl⟩ (by decide) ?_
    refine .keep (.inr ⟨by decide, .inr ⟨_, _, rfl, rfl, .keep hrepository .nil⟩⟩) ?_
    refine .add (.tail _ (.tail _ (.tail _ (.head _)))) ⟨by decide, .inr rfl⟩ (by decide) .nil
  have hat : (Files.single "config.json" v.toBytes).at? ["config.json"] = some (.file v.toBytes) :=
    rfl
  exact ⟨hpadded, ((load_padded hat hv hw hpadded).2 "config.json").1⟩

end SearchConfig
