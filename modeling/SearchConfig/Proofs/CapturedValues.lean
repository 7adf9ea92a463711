import SearchConfig.Proofs.Accounting
import SearchConfig.Proofs.JsonValues
import SearchConfig.Workspace.Part

/-!
# Values captured as secrets

No field of a repository but that of its secret captures anything (`Schema.CapturesNothing`). So a
value that stands where a secret may be and cannot be captured is the one problem of its kind, and it
is told at the name under which the value was found; null stands for no secret, and any other value
becomes one (`Secret.capture_complete`).
-/

namespace SearchConfig

/-! ## Problems with secrets -/

/-- Is the fault that a value cannot be captured? -/
def Fault.isCapture : Fault → Bool
  | notCaptured _ => true
  | _ => false

namespace Decoded

variable {α β : Type}

/-- The problems with values that cannot be captured. -/
def captureProblems (x : Decoded α) : List Problem := x.problems.filter fun p => p.fault.isCapture

@[simp] theorem captureProblems_map (f : α → β) (x : Decoded α) :
    (x.map f).captureProblems = x.captureProblems := by
  rcases x with a | problems <;> rfl

@[simp] theorem captureProblems_functorMap (f : α → β) (x : Decoded α) :
    (f <$> x).captureProblems = x.captureProblems := captureProblems_map f x

@[simp] theorem captureProblems_seq (f : Decoded (α → β)) (x : Decoded α) :
    (f <*> x).captureProblems = f.captureProblems ++ x.captureProblems := by
  have hproblems : (f <*> x).problems = f.problems ++ x.problems := by
    rcases f with g | problems <;> rcases x with a | problems' <;>
      simp [Seq.seq, both, Decoded.problems]
  simp only [captureProblems, hproblems, List.filter_append]

@[simp] theorem captureProblems_under (step : Step) (x : Decoded α) :
    (x.under step).captureProblems = x.captureProblems.map (Problem.under step) := by
  rcases x with a | problems
  · rfl
  · exact List.filter_map

end Decoded

namespace Schema

variable {α β : Type} [Source α] {read : α → Decoded β} {field : FieldName}

/-- Is no value that is read to be captured? -/
def CapturesNothing (read : α → Decoded β) : Prop := ∀ v, (read v).captureProblems = []

theorem capturesNothing_text : CapturesNothing (text : α → Decoded Text) := by
  intro v
  unfold text
  split <;> rfl

theorem capturesNothing_integer : CapturesNothing (integer : α → Decoded Int) := by
  intro v
  unfold integer
  split <;> rfl

theorem capturesNothing_strictTruth : CapturesNothing (strictTruth : α → Decoded Bool) := by
  intro v
  unfold strictTruth
  split <;> rfl

theorem capturesNothing_truth : CapturesNothing (truth : α → Decoded Bool) := by
  intro v
  unfold truth
  split
  · rfl
  · exact capturesNothing_strictTruth v

theorem CapturesNothing.nullable (h : CapturesNothing read) :
    CapturesNothing (nullable read) := by
  intro v
  unfold Schema.nullable
  split
  · rfl
  · rw [Decoded.captureProblems_map, h]

omit [Source α] in
theorem CapturesNothing.optional (h : CapturesNothing read) (absent : β)
    (entries : List (Key × α)) : (optional field absent read entries).captureProblems = [] := by
  unfold Schema.optional
  split
  · rw [Decoded.captureProblems_under, h, List.map_nil]
  · rfl

omit [Source α] in
theorem CapturesNothing.required (h : CapturesNothing read) (entries : List (Key × α)) :
    (required field read entries).captureProblems = [] := by
  unfold Schema.required
  split
  · rw [Decoded.captureProblems_under, h, List.map_nil]
  · rfl

end Schema

open Schema

section Decode

variable {α σ π : Type} [Source α]

theorem UrlPattern.capturesNothing_decode : CapturesNothing (UrlPattern.decode : α → _) := by
  intro v
  unfold UrlPattern.decode record
  split
  · simp [capturesNothing_text.optional]
  · rfl

/-- Only the secret of a repository is captured. -/
theorem RepositoryOf.captureProblems_decode {secret : α → Decoded σ} {pattern : α → Decoded π}
    (hpattern : CapturesNothing pattern) {v : α} {entries : List (Key × α)}
    (hv : Source.shape v = .object entries) :
    (decode secret pattern v).captureProblems
      = (Schema.optional vcsConfigField none (nullable secret) entries).captureProblems := by
  simp only [decode, record, hv, Decoded.captureProblems_seq, Decoded.captureProblems_functorMap,
    capturesNothing_text.required, capturesNothing_text.optional, capturesNothing_integer.optional,
    capturesNothing_truth.optional, capturesNothing_strictTruth.nullable.optional,
    hpattern.nullable.optional, List.nil_append, List.append_nil]

end Decode

/-- The entries of a dictionary as a decoder sees them. -/
def Value.keyed (entries : List (Value × Value)) : List (Key × Value) :=
  entries.map fun (key, v) => (key.key, v)

section Reported

variable {entries : List (Value × Value)} {name : Text} {v : Value}

/-- The problems with a value that is found under a name where a secret may be. -/
def Secret.problemsUnder (name : Text) : Value → List Problem
  | .null => []
  | v => match capture v with
    | .ok _ => []
    | .error fault => [⟨[.key name], .notCaptured fault⟩]

theorem Secret.problemsUnder_of_ne_null (hv : v ≠ .null) : problemsUnder name v
    = match capture v with
      | .ok _ => []
      | .error fault => [⟨[.key name], .notCaptured fault⟩] := by
  cases v <;> first | rfl | exact absurd rfl hv

theorem nullable_of_ne_null {β : Type} {read : Value → Decoded β} (hv : v ≠ .null) :
    nullable read v = (read v).map some := by
  unfold nullable
  cases v <;> first | rfl | exact absurd rfl hv

theorem secret_eq (v : Value) : Schema.secret v = match Secret.capture v with
    | .ok s => .accepted s
    | .error fault => .fail (.notCaptured fault) := rfl

theorem secret_accepted_iff {s : Secret} :
    Schema.secret v = .accepted s ↔ Secret.capture v = .ok s := by
  rw [secret_eq]
  rcases Secret.capture v with fault | s' <;> simp [Decoded.fail]

theorem captureProblems_optional {σ : Type} {secret : Value → Decoded σ}
    (hsecret : (secret v).captureProblems = (Schema.secret v).captureProblems)
    (hfound : find? RepositoryOf.vcsConfigField (Value.keyed entries) = some (name, v)) :
    (Schema.optional RepositoryOf.vcsConfigField none (nullable secret)
      (Value.keyed entries)).captureProblems = Secret.problemsUnder name v := by
  rw [Schema.optional, hfound, Decoded.captureProblems_under]
  by_cases hv : v = .null
  · subst hv
    rfl
  · rw [nullable_of_ne_null hv, Decoded.captureProblems_map, hsecret, secret_eq,
      Secret.problemsUnder_of_ne_null hv]
    rcases Secret.capture v with fault | s <;> rfl

/-- The problems with a part are those with its value, unless that is an object already. -/
theorem Part.captureProblems_secret (hv : ∀ h, v ≠ .live h) :
    (Part.secret v).captureProblems = (Schema.secret v).captureProblems := by
  have hread : Part.secret v = (Schema.secret v).map .fresh := by
    cases v <;> first | rfl | exact absurd rfl (hv _)
  rw [hread, Decoded.captureProblems_map]

theorem Part.capturesNothing_pattern : CapturesNothing Part.pattern := by
  intro v
  unfold Part.pattern Part.decode
  split
  · split
    · rfl
    · rw [Decoded.captureProblems_map, UrlPattern.capturesNothing_decode]
  · rw [Decoded.captureProblems_map, UrlPattern.capturesNothing_decode]

/-- A repository that is accepted holds what was captured. -/
theorem Repository.vcsConfig_of_decode {r : Repository}
    (hfound : find? RepositoryOf.vcsConfigField (Value.keyed entries) = some (name, v))
    (h : Repository.decode (Value.dict entries) = .accepted r) :
    r.vcsConfig = (Secret.capture v).toOption := by
  have hshape : Source.shape (Value.dict entries) = .object (Value.keyed entries) := rfl
  simp only [Repository.decode, RepositoryOf.decode, record, hshape, Decoded.seq_accepted_iff,
    Decoded.functorMap_accepted_iff] at h
  obtain ⟨_, _, ⟨_, _, ⟨_, _, ⟨_, _, ⟨_, secret, ⟨_, _, ⟨_, _, ⟨_, -, rfl⟩, -, rfl⟩, -, rfl⟩,
    hsecret, rfl⟩, -, rfl⟩, -, rfl⟩, -, rfl⟩, -, rfl⟩ := h
  rw [Schema.optional, hfound] at hsecret
  have hread := Decoded.under_accepted_iff.1 hsecret
  change secret = _
  by_cases hv : v = .null
  · subst hv
    cases hread
    rfl
  · rw [nullable_of_ne_null hv] at hread
    obtain ⟨s, hs, rfl⟩ := Decoded.map_accepted_iff.1 hread
    rw [secret_accepted_iff.1 hs]
    rfl

/-- A repository of which only the remote and the secret are given. -/
theorem Repository.decode_given (url : Text) (v : Value) :
    Repository.decode (Value.dict [(.text "url", .text url), (.text "vcs_config_message", v)])
      = match Secret.problemsUnder "vcs_config_message" v with
        | [] => .accepted ⟨url, 0, [], (Secret.capture v).toOption, none, false, none, none⟩
        | problems => .refused problems := by
  have hgiven : ∀ x : Decoded (Option Secret),
      RepositoryOf.mk <$> .accepted url <*> .accepted 0 <*> .accepted []
        <*> x.under (.key "vcs_config_message") <*> .accepted none <*> .accepted false
        <*> .accepted none <*> .accepted none
      = (x.under (.key "vcs_config_message")).map fun secret =>
          (⟨url, 0, [], secret, none, false, none, none⟩ : Repository) := by
    rintro (secret | problems)
    · rfl
    · simp [Functor.map, Seq.seq, Decoded.both, Decoded.under, Decoded.map, Decoded.problems]
  refine (hgiven (nullable Schema.secret v)).trans ?_
  by_cases hv : v = .null
  · subst hv
    rfl
  · rw [nullable_of_ne_null hv, secret_eq, Secret.problemsUnder_of_ne_null hv]
    rcases Secret.capture v with fault | s <;> rfl

end Reported

/-- A value is captured if and only if it is a secret, a byte string or built of what JSON knows. A
secret stays as it is, a byte string is the payload, and any other payload is the UTF-8 form of the
JSON text. A repository reports a value that is neither captured nor null, and only this one, at the
name under which it was found. -/
theorem Secret.capture_complete (v : Value) :
    ((∃ s, capture v = .ok s) ↔
      (∃ s, v = .secret s) ∨ (∃ b, v = .bytes b ∨ v = .buffer b) ∨ (v ≠ .null ∧ v.HasJson))
    ∧ (∀ s, capture v = .ok s →
      v = .secret s ∨ v = .bytes s.payload ∨ v = .buffer s.payload
        ∨ ∃ cs, v.serialize .compact = .ok (.ofChars cs) ∧ Utf8.decode? s.payload = some cs)
    ∧ (∀ entries name,
      find? RepositoryOf.vcsConfigField (Value.keyed entries) = some (name, v) →
        (Repository.decode (Value.dict entries)).captureProblems = problemsUnder name v
        ∧ (∀ r, Repository.decode (Value.dict entries) = .accepted r →
          r.vcsConfig = (capture v).toOption)
        ∧ ((∀ h, v ≠ .live h) →
          (RepositoryOf.decode Part.secret Part.pattern (Value.dict entries)).captureProblems
            = problemsUnder name v))
    ∧ ∀ url, Repository.decode
        (Value.dict [(.text "url", .text url), (.text "vcs_config_message", v)])
      = match problemsUnder "vcs_config_message" v with
        | [] => .accepted ⟨url, 0, [], (capture v).toOption, none, false, none, none⟩
        | problems => .refused problems := by
  refine ⟨exists_capture_iff v, fun s => payload_of_capture, fun entries name hfound =>
    ⟨?_, fun r => Repository.vcsConfig_of_decode hfound, fun hlive => ?_⟩,
    fun url => Repository.decode_given url v⟩
  · exact (RepositoryOf.captureProblems_decode UrlPattern.capturesNothing_decode rfl).trans
      (captureProblems_optional rfl hfound)
  · exact (RepositoryOf.captureProblems_decode Part.capturesNothing_pattern rfl).trans
      (captureProblems_optional (Part.captureProblems_secret hlive) hfound)

/-- A text with a lone surrogate has a JSON text, but none that could be encoded. -/
theorem Secret.capture_complete_surrogate :
    (Repository.decode (Value.dict [(.text "url", .text "u"),
        (.text "vcs-config", .list [.text [.surrogate 0]])])).captureProblems
      = problemsUnder "vcs-config" (.list [.text [.surrogate 0]])
    ∧ problemsUnder "vcs-config" (.list [.text [.surrogate 0]])
      = [⟨[.key "vcs-config"], .notCaptured (.unencodable ⟨2, .surrogate 0, 1⟩)⟩] :=
  ⟨((capture_complete _).2.2.1 _ _ rfl).1, rfl⟩

/-- A value that is given by the inner name of the field is not reported at the outer one. -/
theorem Repository.decode_set :
    Repository.decode (Value.dict [(.text "url", .text "u"),
        (.text "vcs_config_message", .set [.int 1])])
      = .refused [⟨[.key "vcs_config_message"],
          .notCaptured (.unserializable (.unsupported "set"))⟩]
    ∧ Step.key "vcs_config_message" ≠ .key "vcs-config" := ⟨rfl, by decide⟩

end SearchConfig
