import SearchConfig.Proofs.FreshSettings
import SearchConfig.Settings.Cache

/-!
# Which settings are kept

What a process keeps is what it would have read when it first asked for its settings since they were
last cleared (`SettingsCache.keeps_after`): asking again, a new environment and settings that are
made of arguments leave it as it is, and what cannot be read is not kept. So every answer is one of
a fresh reading in an environment that is known from the steps alone
(`settings_kept_since_cleared`).
-/

namespace SearchConfig

/-- The surroundings after steps, of which only a new environment changes them. -/
def Surroundings.after (around : Surroundings) : List SettingsStep → Surroundings
  | [] => around
  | .setEnvironment environment :: steps =>
    after ({ around with environment := [] }.setVariables environment).1 steps
  | _ :: steps => after around steps

namespace SettingsCache

variable {c : SettingsCache} {steps : List SettingsStep} {i : Nat}

/-- What is kept after steps. -/
def after (c : SettingsCache) (steps : List SettingsStep) : SettingsCache :=
  steps.foldl (fun c s => (c.step s).2) c

theorem after_append (c : SettingsCache) (steps steps' : List SettingsStep) :
    c.after (steps ++ steps') = (c.after steps).after steps' := List.foldl_append

theorem after_take_succ {s : SettingsStep} (h : steps[i]? = some s) (c : SettingsCache) :
    c.after (steps.take (i + 1)) = ((c.after (steps.take i)).step s).2 := by
  rw [List.take_add_one, h, after_append]
  rfl

theorem getElem?_run (c : SettingsCache) (steps : List SettingsStep) (i : Nat) :
    (c.run steps)[i]? = steps[i]?.map fun s => ((c.after (steps.take i)).step s).1 := by
  induction steps generalizing c i with
  | nil => rfl
  | cons s steps ih =>
    rcases i with _ | i
    · rfl
    · rw [run, List.getElem?_cons_succ, ih]
      rfl

theorem around_step (c : SettingsCache) (s : SettingsStep) :
    (c.step s).2.around = c.around.after [s] := by
  rcases s with environment | _ | _ | arguments
  · rfl
  · rfl
  · simp only [step, get]
    split
    · rfl
    · split <;> rfl
  · rfl

theorem around_after (c : SettingsCache) (steps : List SettingsStep) :
    (c.after steps).around = c.around.after steps := by
  induction steps generalizing c with
  | nil => rfl
  | cons s steps ih =>
    have hcons : c.around.after (s :: steps) = (c.around.after [s]).after steps := by
      rcases s <;> rfl
    rw [hcons, ← around_step]
    exact ih _

section Get

variable {settings : Settings}

theorem get_of_kept (h : c.kept = some settings) : c.get = (.ok settings, c) := by
  rw [get, h]

theorem get_of_fresh (h : c.kept = none) (hfresh : Settings.fresh c.around = .ok settings) :
    c.get = (.ok settings, { c with kept := some settings }) := by
  simp only [get, h, hfresh]

theorem get_of_error (h : c.kept = none) {e : SettingsError}
    (hfresh : Settings.fresh c.around = .error e) : c.get = (.error e, c) := by
  simp only [get, h, hfresh]

end Get

/-- Asks a step for settings, and are they given? -/
def Returns (c : SettingsCache) (steps : List SettingsStep) (i : Nat) : Prop :=
  steps[i]? = some .get ∧ ∃ settings, (c.run steps)[i]? = some (some (.ok settings))

/-- Are settings given by step `j`, and for the first time since they were last cleared before step
`i`? -/
structure GivesFirst (c : SettingsCache) (steps : List SettingsStep) (j i : Nat) : Prop where
  returns : c.Returns steps j
  first : ∀ k < j, c.Returns steps k → ∃ m, k < m ∧ m < j ∧ steps[m]? = some .clear
  uncleared : ∀ m, j < m → m < i → steps[m]? ≠ some .clear

/-- Is what is kept before a step what a fresh reading would have given when settings were first
given since they were cleared? Is nothing kept if none were given since? -/
def Keeps (c : SettingsCache) (steps : List SettingsStep) (i : Nat) : Prop :=
  match (c.after (steps.take i)).kept with
  | none => ∀ k < i, c.Returns steps k → ∃ m, k < m ∧ m < i ∧ steps[m]? = some .clear
  | some settings => ∃ j < i, c.GivesFirst steps j i
    ∧ Settings.fresh (c.around.after (steps.take j)) = .ok settings

theorem GivesFirst.succ {j : Nat} (h : c.GivesFirst steps j i) (hstep : steps[i]? ≠ some .clear) :
    c.GivesFirst steps j (i + 1) where
  returns := h.returns
  first := h.first
  uncleared m hj hi := by
    rcases Nat.lt_succ_iff_lt_or_eq.1 hi with hi | rfl
    · exact h.uncleared m hj hi
    · exact hstep

/-- A step that neither clears nor gives settings that are not kept already leaves all as it is. -/
theorem Keeps.succ (h : c.Keeps steps i) (hstep : steps[i]? ≠ some .clear)
    (hkept : (c.after (steps.take (i + 1))).kept = (c.after (steps.take i)).kept)
    (hnew : (c.after (steps.take i)).kept = none → ¬ c.Returns steps i) :
    c.Keeps steps (i + 1) := by
  unfold Keeps at h ⊢
  rw [hkept]
  split at h
  · rename_i hnone
    intro k hk hreturns
    rcases Nat.lt_succ_iff_lt_or_eq.1 hk with hk | rfl
    · obtain ⟨m, hkm, hm, hclear⟩ := h k hk hreturns
      exact ⟨m, hkm, Nat.lt_succ_of_lt hm, hclear⟩
    · exact absurd hreturns (hnew hnone)
  · obtain ⟨j, hj, hfirst, hfresh⟩ := h
    exact ⟨j, Nat.lt_succ_of_lt hj, hfirst.succ hstep, hfresh⟩

theorem not_returns {s : SettingsStep} (h : steps[i]? = some s) (hs : s ≠ .get) :
    ¬ c.Returns steps i :=
  fun hreturns => hs (Option.some.inj (h.symm.trans hreturns.1))

theorem returns_iff (h : steps[i]? = some .get) : c.Returns steps i
    ↔ ∃ settings, (c.after (steps.take i)).get.1 = .ok settings := by
  rw [Returns, getElem?_run, h, Option.map_some]
  simp only [step, true_and, Option.some.injEq]

/-- One step keeps what is kept in step with the answers. -/
theorem Keeps.step (h : c.Keeps steps i) {s : SettingsStep} (hs : steps[i]? = some s) :
    c.Keeps steps (i + 1) := by
  have hafter := after_take_succ hs c
  have hclear : s ≠ .clear → steps[i]? ≠ some .clear := fun hne heq =>
    hne (Option.some.inj (hs.symm.trans heq))
  rcases s with environment | _ | _ | arguments
  · exact h.succ (hclear (by simp)) (by rw [hafter]; rfl) fun _ => not_returns hs (by simp)
  · unfold Keeps
    rw [hafter]
    intro k hk hreturns
    rcases Nat.lt_succ_iff_lt_or_eq.1 hk with hk | rfl
    · exact ⟨i, hk, Nat.lt_succ_self i, hs⟩
    · exact absurd hreturns (not_returns hs (by simp))
  · rcases hkept : (c.after (steps.take i)).kept with _ | settings
    · rcases hfresh : Settings.fresh (c.after (steps.take i)).around with e | settings
      · -- What cannot be read is no answer, and nothing is kept of it.
        have hget := get_of_error hkept hfresh
        refine h.succ (hclear (by simp)) ?_ fun _ => ?_
        · rw [hafter, SettingsCache.step, hget]
        · rw [returns_iff hs, hget]
          simp
      · have hget := get_of_fresh hkept hfresh
        unfold Keeps at h ⊢
        rw [hkept] at h
        rw [hafter, SettingsCache.step, hget]
        refine ⟨i, Nat.lt_succ_self i, ⟨(returns_iff hs).2 ⟨settings, by rw [hget]⟩, h, ?_⟩, ?_⟩
        · exact fun m hm hm' => absurd hm (Nat.not_lt.2 (Nat.le_of_lt_succ hm'))
        · rw [← around_after]
          exact hfresh
    · refine h.succ (hclear (by simp)) ?_ fun hnone => ?_
      · rw [hafter, SettingsCache.step, get_of_kept hkept]
      · rw [hkept] at hnone
        cases hnone
  · exact h.succ (hclear (by simp)) (by rw [hafter]; rfl) fun _ => not_returns hs (by simp)

/-- What is kept is in step with the answers throughout a run that begins with nothing kept. -/
theorem keeps_after (around : Surroundings) (steps : List SettingsStep) :
    ∀ i ≤ steps.length, (start around).Keeps steps i
  | 0, _ => fun _ hk => absurd hk (Nat.not_lt_zero _)
  | i + 1, hi => (keeps_after around steps i (Nat.le_of_succ_le hi)).step
      (List.getElem?_eq_getElem hi)

theorem get_of_answer (hget : steps[i]? = some .get) {answer : Except SettingsError Settings}
    (h : (c.run steps)[i]? = some (some answer)) : (c.after (steps.take i)).get.1 = answer := by
  rw [getElem?_run, hget, Option.map_some] at h
  exact Option.some.inj (Option.some.inj h)

theorem Keeps.exists_givesFirst (h : c.Keeps steps i) (hget : steps[i]? = some .get)
    {settings : Settings} (hgiven : (c.run steps)[i]? = some (some (.ok settings))) :
    ∃ j ≤ i, c.GivesFirst steps j i
      ∧ Settings.fresh (c.around.after (steps.take j)) = .ok settings := by
  have hreturns : c.Returns steps i := ⟨hget, settings, hgiven⟩
  have hanswer := get_of_answer hget hgiven
  unfold Keeps at h
  rcases hkept : (c.after (steps.take i)).kept with _ | known
  · rw [hkept] at h
    rcases hfresh : Settings.fresh (c.after (steps.take i)).around with e | found
    · rw [get_of_error hkept hfresh] at hanswer
      cases hanswer
    · rw [get_of_fresh hkept hfresh] at hanswer
      rw [around_after] at hfresh
      exact ⟨i, Nat.le_refl i, ⟨hreturns, h, fun m hm hm' => absurd hm (Nat.lt_asymm hm')⟩,
        hfresh.trans hanswer⟩
  · rw [hkept] at h
    rw [get_of_kept hkept] at hanswer
    obtain ⟨j, hj, hfirst, hfresh⟩ := h
    exact ⟨j, Nat.le_of_lt hj, hfirst, hfresh.trans hanswer⟩

theorem kept_of_error (hget : steps[i]? = some .get) {e : SettingsError}
    (hgiven : (c.run steps)[i]? = some (some (.error e))) :
    Settings.fresh (c.around.after (steps.take i)) = .error e
      ∧ (c.after (steps.take (i + 1))).kept = none := by
  have hanswer := get_of_answer hget hgiven
  rcases hkept : (c.after (steps.take i)).kept with _ | known
  · rcases hfresh : Settings.fresh (c.after (steps.take i)).around with e' | found
    · have hfail := get_of_error hkept hfresh
      rw [hfail] at hanswer
      rw [after_take_succ hget, SettingsCache.step, hfail, ← around_after]
      exact ⟨hfresh.trans hanswer, hkept⟩
    · rw [get_of_fresh hkept hfresh] at hanswer
      cases hanswer
  · rw [get_of_kept hkept] at hanswer
    cases hanswer

theorem run_make {arguments : SettingsArguments} (h : steps[i]? = some (.make arguments)) :
    (c.run steps)[i]? = some (some (Settings.read (c.around.after (steps.take i)) arguments))
      ∧ c.after (steps.take (i + 1)) = c.after (steps.take i) := by
  rw [getElem?_run, h, after_take_succ h, ← around_after]
  exact ⟨rfl, rfl⟩

end SettingsCache

/-- In every run of steps that begins with nothing kept, settings that are given are those of a
fresh reading when they were first given since they were cleared. Settings that are made of
arguments are those of the environment at that step, and leave what is kept as it is. If settings
cannot be read then nothing is kept. -/
theorem settings_kept_since_cleared (around : Surroundings) (steps : List SettingsStep) (i : Nat) :
    let c := SettingsCache.start around
    (∀ settings, steps[i]? = some .get → (c.run steps)[i]? = some (some (.ok settings)) →
      ∃ j ≤ i, c.GivesFirst steps j i ∧ Settings.fresh (around.after (steps.take j)) = .ok settings)
    ∧ (∀ arguments, steps[i]? = some (.make arguments) →
      (c.run steps)[i]? = some (some (Settings.read (around.after (steps.take i)) arguments))
      ∧ c.after (steps.take (i + 1)) = c.after (steps.take i))
    ∧ ∀ e, steps[i]? = some .get → (c.run steps)[i]? = some (some (.error e)) →
      Settings.fresh (around.after (steps.take i)) = .error e
      ∧ (c.after (steps.take (i + 1))).kept = none := by
  intro c
  refine ⟨fun settings hget hgiven => ?_, fun _ => SettingsCache.run_make,
    fun _ hget => SettingsCache.kept_of_error hget⟩
  have hlength : i ≤ steps.length := Nat.le_of_lt (List.getElem?_eq_some_iff.1 hget).1
  exact (SettingsCache.keeps_after around steps i hlength).exists_givesFirst hget hgiven

/-- The surroundings of a process with one variable. -/
def Surroundings.debugging : Surroundings := ⟨⟨[], [], 0⟩, [("HOUND_LOG_LEVEL", "DEBUG")], []⟩

theorem Settings.fresh_debugging :
    Settings.fresh .debugging = .ok ⟨"development", "DEBUG", "config.json"⟩ := by
  rw [Settings.fresh_of_missing rfl]
  rfl

/-- The surroundings of a process whose environment file is not UTF-8. -/
def Surroundings.garbled : Surroundings := ⟨.single ".env" ⟨#[0xFF]⟩, [], []⟩

theorem Settings.fresh_garbled :
    Settings.fresh .garbled = .error (.undecodable (.utf8 ⟨0, 1, 0xFF, .invalidStart⟩)) := by
  have hread : Surroundings.garbled.files.read (Path.ofText EnvFile.standardName).toText
      = .ok ⟨#[0xFF]⟩ := rfl
  have hnone : Utf8.decode? ⟨#[0xFF]⟩ = none := rfl
  have hfault : Utf8.decodeFault? ⟨#[0xFF]⟩ = some ⟨0, 1, 0xFF, .invalidStart⟩ := by
    decide +kernel
  refine Settings.fresh_of_error ?_
  rw [EnvFile.read, hread]
  simp only [EnvFile.encodingOf, bind, Except.bind, Encoding.decode, Encoding.decodeUtf8, hnone,
    hfault]
  rfl

/-- Settings stay as they were when a variable is taken back, and are not made of it any more. -/
theorem settings_kept_since_cleared_debugging :
    let steps : List SettingsStep := [.setEnvironment [("HOUND_LOG_LEVEL", "DEBUG")], .get,
      .setEnvironment [], .make [], .get]
    let c := SettingsCache.start .bare
    (∃ j ≤ 4, c.GivesFirst steps j 4 ∧ Settings.fresh (Surroundings.bare.after (steps.take j))
      = .ok ⟨"development", "DEBUG", "config.json"⟩)
    ∧ (c.run steps)[3]? = some (some (Settings.fresh .bare))
    ∧ c.after (steps.take 4) = c.after (steps.take 3)
    ∧ ((SettingsCache.start .garbled).after [.get]).kept = none := by
  intro steps c
  have hget : SettingsCache.get ⟨.debugging, none⟩
      = (.ok ⟨"development", "DEBUG", "config.json"⟩,
        ⟨.debugging, some ⟨"development", "DEBUG", "config.json"⟩⟩) :=
    SettingsCache.get_of_fresh rfl Settings.fresh_debugging
  have hafter : c.after (steps.take 4) = ⟨.bare, some ⟨"development", "DEBUG", "config.json"⟩⟩ := by
    have hstart : c.after (steps.take 4)
        = ((SettingsCache.get ⟨.debugging, none⟩).2).after [.setEnvironment [], .make []] := rfl
    rw [hstart, hget]
    rfl
  have hgiven : (c.run steps)[4]? = some (some (.ok ⟨"development", "DEBUG", "config.json"⟩)) := by
    rw [SettingsCache.getElem?_run, hafter]
    rfl
  have hrefused : ((SettingsCache.start .garbled).run [.get])[0]?
      = some (some (.error (.undecodable (.utf8 ⟨0, 1, 0xFF, .invalidStart⟩)))) := by
    have hfail := SettingsCache.get_of_error (c := .start .garbled) rfl Settings.fresh_garbled
    rw [SettingsCache.getElem?_run]
    exact congrArg (fun answer => some (some answer)) (congrArg Prod.fst hfail)
  have hmade := (settings_kept_since_cleared .bare steps 3).2.1 [] rfl
  exact ⟨(settings_kept_since_cleared .bare steps 4).1 _ rfl hgiven, hmade.1, hmade.2,
    ((settings_kept_since_cleared .garbled [.get] 0).2.2 _ rfl hrefused).2⟩

end SearchConfig
