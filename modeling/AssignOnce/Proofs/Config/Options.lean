import AssignOnce.Check
import AssignOnce.Config.Settings
import Mathlib.Data.List.Induction

/-!
# The last option for a setting wins

A configuration is read setting by setting (`Config.current`). Of the settings that options make,
however deep they are nested (`ConfigOption.settings`), the last one for a key is the one that the
configuration has, and without any it has the default. A configuration that is built from options is
nothing but its settings (`Config.Built.eq_of_current_eq`), so options build the same configuration
exactly if they agree in these (`ConfigOption.last_setting_wins`).
-/

namespace AssignOnce

/-! ## Settings and their keys -/

/-- What a setting is for. -/
inductive SettingKey where
  | generated
  | outArgs
  | params
  | reassign
  | unused
  | maxTries
  | reader
  deriving DecidableEq, Repr

namespace SettingKey

/-- The setting that is made by default. -/
def default : SettingKey → Setting
  | generated => .generated false
  | outArgs => .outArgs true
  | params => .params true
  | reassign => .reassign true
  | unused => .unused true
  | maxTries => .maxTries 1000
  | reader => .reader none

end SettingKey

namespace Setting

/-- What a setting is for. -/
def key : Setting → SettingKey
  | generated _ => .generated
  | outArgs _ => .outArgs
  | params _ => .params
  | reassign _ => .reassign
  | unused _ => .unused
  | maxTries _ => .maxTries
  | reader _ => .reader

/-- The last setting for a key. -/
def last? (k : SettingKey) (l : List Setting) : Option Setting :=
  (l.filter (·.key = k)).getLast?

theorem last?_concat (k : SettingKey) (l : List Setting) (s : Setting) :
    last? k (l ++ [s]) = if s.key = k then some s else last? k l := by
  unfold last?
  by_cases h : s.key = k <;> simp [h]

theorem last?_eq_none {k : SettingKey} {l : List Setting} (h : ∀ s ∈ l, s.key ≠ k) :
    last? k l = none := by
  rw [last?, List.filter_eq_nil_iff.2 (by simpa using h), List.getLast?_nil]

/-- The only setting for a key is the last one. -/
theorem last?_of_unique {l : List Setting} {s : Setting} (hs : s ∈ l)
    (hunique : ∀ s' ∈ l, s'.key = s.key → s' = s) : last? s.key l = some s := by
  have hmem : s ∈ l.filter (·.key = s.key) := List.mem_filter.2 ⟨hs, decide_eq_true rfl⟩
  cases hlast : last? s.key l with
  | none => exact absurd (List.getLast?_eq_none_iff.1 hlast) (List.ne_nil_of_mem hmem)
  | some s' =>
    have hs' := List.mem_filter.1 (List.mem_of_getLast? hlast)
    rw [hunique s' hs'.1 (of_decide_eq_true hs'.2)]

variable {c : Config} {s s' : Setting}

/-- Settings for different keys commute: masks for the same flags have no flag in common. -/
theorem apply_comm (h : s.key ≠ s'.key) : s'.apply (s.apply c) = s.apply (s'.apply c) := by
  cases s <;> cases s' <;> first
    | exact absurd rfl h
    | rfl
    | refine congrArg (fun f => { c with behavior := f }) (Flags.set_comm ?_)
      decide
    | refine congrArg (fun f => { c with checks := f }) (Flags.set_comm ?_)
      decide

theorem foldl_apply_comm {l : List Setting} (h : ∀ s' ∈ l, s.key ≠ s'.key) :
    l.foldl apply (s.apply c) = s.apply (l.foldl apply c) := by
  induction l generalizing c with
  | nil => rfl
  | cons s' l ih =>
    rw [List.foldl_cons, apply_comm (h s' List.mem_cons_self),
      ih fun s' hs' => h s' (List.mem_cons_of_mem _ hs'), List.foldl_cons]

theorem foldl_foldl_comm {l l' : List Setting} (h : ∀ s ∈ l, ∀ s' ∈ l', s.key ≠ s'.key) :
    l'.foldl apply (l.foldl apply c) = l.foldl apply (l'.foldl apply c) := by
  induction l generalizing c with
  | nil => rfl
  | cons s l ih =>
    rw [List.foldl_cons, ih fun s hs => h s (List.mem_cons_of_mem _ hs),
      foldl_apply_comm (h s List.mem_cons_self), List.foldl_cons]

end Setting

/-! ## Flags that masks stand for -/

namespace Flags

/-- Whether only flags of some masks are on. -/
def Within (masks : List (BitVec 8)) (f : Flags) : Prop :=
  ∀ i, f.bits.getLsbD i → (ofMasks masks).bits.getLsbD i

namespace Within

variable {f f' : Flags} {masks : List (BitVec 8)}

theorem set {mask : BitVec 8} {on : Bool} (h : f.Within masks) (hmask : mask ∈ masks) :
    (f.set mask on).Within masks := by
  intro i hi
  rw [getLsbD_set] at hi
  split at hi
  · rename_i hbit
    exact getLsbD_ofMasks.2 ⟨mask, hmask, hbit⟩
  · exact h i hi

theorem getLsbD_of_enabled (h : f.Within masks) (hsingle : ∀ m ∈ masks, ∃ i, m = BitVec.twoPow 8 i)
    (henabled : ∀ m ∈ masks, f.enabled m → f'.enabled m) {i : Nat} (hi : f.bits.getLsbD i) :
    f'.bits.getLsbD i := by
  obtain ⟨m, hm, hmi⟩ := getLsbD_ofMasks.1 (h i hi)
  obtain ⟨j, hj, hmj⟩ := enabled_iff.1 (henabled m hm (enabled_iff.2 ⟨i, hi, hmi⟩))
  obtain ⟨k, rfl⟩ := hsingle m hm
  simp only [BitVec.getLsbD_twoPow, Bool.and_eq_true, decide_eq_true_eq] at hmi hmj
  rwa [← hmi.2, hmj.2]

/-- Flags of masks that stand for one flag each are equal if the same masks are on. -/
theorem eq (h : f.Within masks) (h' : f'.Within masks)
    (hsingle : ∀ m ∈ masks, ∃ i, m = BitVec.twoPow 8 i)
    (henabled : ∀ m ∈ masks, f.enabled m = f'.enabled m) : f = f' := by
  refine eq_of_getLsbD_eq fun i => Bool.eq_iff_iff.2 ⟨fun hi => ?_, fun hi => ?_⟩
  · exact h.getLsbD_of_enabled hsingle (fun m hm he => (henabled m hm).symm.trans he) hi
  · exact h'.getLsbD_of_enabled hsingle (fun m hm he => (henabled m hm).trans he) hi

end Within

end Flags

/-! ## Reading a configuration -/

namespace Config

/-- The setting for a key that a configuration has. -/
def current (c : Config) : SettingKey → Setting
  | .generated => .generated c.checksGenerated
  | .outArgs => .outArgs c.policy.outArgs
  | .params => .params c.policy.params
  | .reassign => .reassign c.reportsWrites
  | .unused => .unused c.reportsUnused
  | .maxTries => .maxTries c.maxTries
  | .reader => .reader c.reader

theorem current_initial (k : SettingKey) : initial.current k = k.default := by
  cases k <;> rfl

variable {c c' : Config} {s : Setting}

theorem current_apply_self : (s.apply c).current s.key = s := by
  cases s with
  | generated on => exact congrArg Setting.generated (Flags.enabled_set_self (by decide))
  | outArgs on => exact congrArg Setting.outArgs (Flags.enabled_set_self (by decide))
  | params on => exact congrArg Setting.params (Flags.enabled_set_self (by decide))
  | reassign on => exact congrArg Setting.reassign (Flags.enabled_set_self (by decide))
  | unused on => exact congrArg Setting.unused (Flags.enabled_set_self (by decide))
  | maxTries n => rfl
  | reader r => rfl

theorem current_apply_of_ne {k : SettingKey} (h : s.key ≠ k) :
    (s.apply c).current k = c.current k := by
  cases s <;> cases k <;> first
    | exact absurd rfl h
    | rfl
    | exact congrArg _ (Flags.enabled_set_of_disjoint (by decide))

/-- Applying settings one after the other, the last one for a key wins. -/
theorem current_foldl (k : SettingKey) (l : List Setting) :
    (l.foldl Setting.apply c).current k = (Setting.last? k l).getD (c.current k) := by
  induction l using List.reverseRecOn with
  | nil => rfl
  | append_singleton l s ih =>
    rw [List.foldl_append, List.foldl_cons, List.foldl_nil, Setting.last?_concat]
    split
    · rename_i h
      rw [← h, current_apply_self, Option.getD_some]
    · rename_i h
      rw [current_apply_of_ne h, ih]

/-! ## Built configurations -/

/-- Whether a configuration has no flags but those that settings switch. -/
structure Built (c : Config) : Prop where
  checks : c.checks.Within [reassignMask, unusedMask]
  behavior : c.behavior.Within [generatedMask, outArgsMask, paramsMask]

theorem built_initial : initial.Built where
  checks _ hi := hi
  behavior _ hi := by
    obtain ⟨m, hm, hi⟩ := Flags.getLsbD_ofMasks.1 hi
    exact Flags.getLsbD_ofMasks.2 ⟨m, List.mem_cons_of_mem _ hm, hi⟩

theorem Built.apply (h : c.Built) (s : Setting) : (s.apply c).Built := by
  cases s with
  | generated on => exact ⟨h.checks, h.behavior.set (by decide)⟩
  | outArgs on => exact ⟨h.checks, h.behavior.set (by decide)⟩
  | params on => exact ⟨h.checks, h.behavior.set (by decide)⟩
  | reassign on => exact ⟨h.checks.set (by decide), h.behavior⟩
  | unused on => exact ⟨h.checks.set (by decide), h.behavior⟩
  | maxTries n => exact ⟨h.checks, h.behavior⟩
  | reader r => exact ⟨h.checks, h.behavior⟩

theorem Built.foldl (h : c.Built) (l : List Setting) : (l.foldl Setting.apply c).Built := by
  induction l generalizing c with
  | nil => exact h
  | cons s l ih => exact ih (h.apply s)

/-- A built configuration is nothing but its settings. -/
theorem Built.eq_of_current_eq (h : c.Built) (h' : c'.Built)
    (hcurrent : ∀ k, c.current k = c'.current k) : c = c' := by
  have hchecks : c.checks = c'.checks := by
    refine h.checks.eq h'.checks (by simpa using ⟨⟨0, rfl⟩, ⟨1, rfl⟩⟩) ?_
    simpa using ⟨Setting.reassign.inj (hcurrent .reassign), Setting.unused.inj (hcurrent .unused)⟩
  have hbehavior : c.behavior = c'.behavior := by
    refine h.behavior.eq h'.behavior (by simpa using ⟨⟨0, rfl⟩, ⟨1, rfl⟩, ⟨2, rfl⟩⟩) ?_
    simpa using ⟨Setting.generated.inj (hcurrent .generated),
      Setting.outArgs.inj (hcurrent .outArgs), Setting.params.inj (hcurrent .params)⟩
  have htries : c.maxTries = c'.maxTries := Setting.maxTries.inj (hcurrent .maxTries)
  have hreader : c.reader = c'.reader := Setting.reader.inj (hcurrent .reader)
  cases c
  cases c'
  simp_all

end Config

/-! ## Options -/

namespace ConfigOption

mutual

/-- The settings that an option makes, in order. -/
def settings : ConfigOption → List Setting
  | .absent => []
  | .setting s => [s]
  | .group options => settingsOf options

/-- The settings that options make, in order. -/
def settingsOf : List ConfigOption → List Setting
  | [] => []
  | o :: rest => settings o ++ settingsOf rest

end

mutual

/-- Options are applied by applying their settings one after the other. -/
theorem apply_eq (c : Config) : ∀ o : ConfigOption, o.apply c = o.settings.foldl Setting.apply c
  | .absent => rfl
  | .setting _ => rfl
  | .group options => applyAll_eq c options

theorem applyAll_eq (c : Config) : ∀ options : List ConfigOption,
    applyAll c options = (settingsOf options).foldl Setting.apply c
  | [] => rfl
  | o :: rest => by
    rw [applyAll, apply_eq c o, applyAll_eq _ rest, settingsOf, List.foldl_append]

end

theorem settingsOf_append (options options' : List ConfigOption) :
    settingsOf (options ++ options') = settingsOf options ++ settingsOf options' := by
  induction options with
  | nil => rfl
  | cons o rest ih => rw [List.cons_append, settingsOf, ih, settingsOf, List.append_assoc]

theorem settingsOf_map_setting (l : List Setting) : settingsOf (l.map .setting) = l := by
  induction l with
  | nil => rfl
  | cons s l ih => rw [List.map_cons, settingsOf, ih, settings, List.singleton_append]

theorem configure_eq (options : List ConfigOption) :
    configure options = (settingsOf options).foldl Setting.apply .initial :=
  applyAll_eq _ options

theorem configure_concat (options : List ConfigOption) (s : Setting) :
    configure (options ++ [.setting s]) = s.apply (configure options) := by
  rw [configure_eq, settingsOf_append, List.foldl_append, ← configure_eq]
  rfl

/-- The last setting for a key that options make, or else the default. -/
def given (options : List ConfigOption) (k : SettingKey) : Setting :=
  (Setting.last? k (settingsOf options)).getD k.default

theorem current_configure (options : List ConfigOption) (k : SettingKey) :
    (configure options).current k = given options k := by
  rw [configure_eq, Config.current_foldl, Config.current_initial, given]

theorem built_configure (options : List ConfigOption) : (configure options).Built := by
  rw [configure_eq]
  exact Config.built_initial.foldl _

/-- Options build the same configuration exactly if they agree in the last setting for each key. -/
theorem configure_eq_iff {options options' : List ConfigOption} :
    configure options = configure options' ↔ ∀ k, given options k = given options' k := by
  constructor
  · intro h k
    rw [← current_configure, h, current_configure]
  · intro h
    refine (built_configure options).eq_of_current_eq (built_configure options') fun k => ?_
    rw [current_configure, current_configure, h k]

theorem apply_comm {o o' : ConfigOption}
    (h : ∀ s ∈ o.settings, ∀ s' ∈ o'.settings, s.key ≠ s'.key) (c : Config) :
    o'.apply (o.apply c) = o.apply (o'.apply c) := by
  simp only [apply_eq]
  exact Setting.foldl_foldl_comm h

end ConfigOption

/-! ## Settings of a linter runner -/

namespace Settings

/-- Whether settings have a value for a setting. -/
inductive Gives (s : Settings) : Setting → Prop where
  | reassign {on : Bool} (h : s.reassign = some on) : Gives s (.reassign on)
  | unused {on : Bool} (h : s.unused = some on) : Gives s (.unused on)
  | outArgs {on : Bool} (h : s.outArgs = some on) : Gives s (.outArgs on)
  | params {on : Bool} (h : s.params = some on) : Gives s (.params on)
  | maxTries {n : Int} (h : s.maxTries = some n) : Gives s (.maxTries n)

variable {s : Settings} {x x' : Setting}

theorem Gives.unique (h : s.Gives x) (h' : s.Gives x') (hkey : x.key = x'.key) : x = x' := by
  cases h <;> cases h' <;> simp_all [Setting.key]

theorem mem_settingsOf_options : x ∈ ConfigOption.settingsOf s.options ↔ s.Gives x := by
  rw [options, ConfigOption.settingsOf_map_setting]
  simp only [List.mem_append, List.mem_map, Option.mem_toList]
  constructor
  · rintro ((((⟨on, h, rfl⟩ | ⟨on, h, rfl⟩) | ⟨on, h, rfl⟩) | ⟨on, h, rfl⟩) | ⟨n, h, rfl⟩)
    · exact .reassign h
    · exact .unused h
    · exact .outArgs h
    · exact .params h
    · exact .maxTries h
  · rintro (h | h | h | h | h) <;> simp [h]

/-- Lists of the settings that have values agree in the last setting for each key, as there is only
one for a key. -/
theorem last?_eq_of_gives {l l' : List Setting} (h : ∀ x, x ∈ l ↔ s.Gives x)
    (h' : ∀ x, x ∈ l' ↔ s.Gives x) (k : SettingKey) : Setting.last? k l = Setting.last? k l' := by
  have hlast : ∀ {l : List Setting}, (∀ x, x ∈ l ↔ s.Gives x) → ∀ {x}, s.Gives x →
      Setting.last? x.key l = some x := fun h x hx =>
    Setting.last?_of_unique ((h x).2 hx) fun x' hx' hkey => ((h x').1 hx').unique hx hkey
  by_cases hk : ∃ x, s.Gives x ∧ x.key = k
  · obtain ⟨x, hx, rfl⟩ := hk
    rw [hlast h hx, hlast h' hx]
  · rw [Setting.last?_eq_none fun x hx e => hk ⟨x, (h x).1 hx, e⟩,
      Setting.last?_eq_none fun x hx e => hk ⟨x, (h' x).1 hx, e⟩]

/-- The check in a linter runner is built from any options for the settings that have values, with
generated files checked in any case. -/
theorem config_eq {options : List ConfigOption}
    (h : ∀ x, x ∈ ConfigOption.settingsOf options ↔ s.Gives x) :
    s.config = (Setting.generated true).apply (ConfigOption.configure options) := by
  have hgiven : ConfigOption.configure s.options = ConfigOption.configure options := by
    rw [ConfigOption.configure_eq_iff]
    intro k
    rw [ConfigOption.given, ConfigOption.given,
      last?_eq_of_gives (fun _ => mem_settingsOf_options) h]
  rw [config, ConfigOption.configure_concat, hgiven]

end Settings

namespace ConfigOption

/-- A configuration is built by applying the settings of its options one after the other. It has
the last setting for each key, or else the default, and nothing else, so options for different keys
commute. In a linter runner it is built from the settings that have values. -/
theorem last_setting_wins (options : List ConfigOption) :
    configure options = (settingsOf options).foldl Setting.apply .initial ∧
      (∀ k, (configure options).current k = given options k) ∧
      (∀ options', configure options = configure options' ↔
        ∀ k, given options k = given options' k) ∧
      (∀ o o' : ConfigOption, (∀ s ∈ o.settings, ∀ s' ∈ o'.settings, s.key ≠ s'.key) →
        ∀ c, o'.apply (o.apply c) = o.apply (o'.apply c)) ∧
      ∀ s : Settings, (∀ x, x ∈ settingsOf options ↔ s.Gives x) →
        s.config = (Setting.generated true).apply (configure options) :=
  ⟨configure_eq options, current_configure options, fun _ => configure_eq_iff,
    fun _ _ h => apply_comm h, fun _ h => Settings.config_eq h⟩

/-- Of two values for the parameters the later one counts, however deep they are nested; values for
other settings may come in any order. -/
theorem last_setting_wins_nestedGroups :
    let parameters : List ConfigOption :=
      [.group [.setting (.maxTries 10), .absent, .setting (.params true)], .absent,
        .group [.absent, .group [.setting (.unused false)], .setting (.params false)]]
    let values : List ConfigOption := [.group [.absent, .setting (.maxTries 10)], .absent,
      .setting (.unused false)]
    (configure parameters).current .params = .params false ∧
      (configure parameters).current .outArgs = .outArgs true ∧
      configure parameters = configure (.setting (.params false) :: values) ∧
      (∀ c, (ConfigOption.group values).apply ((ConfigOption.setting (.params false)).apply c) =
        (ConfigOption.setting (.params false)).apply ((ConfigOption.group values).apply c)) ∧
      (Settings.mk none (some false) none none (some 10)).config =
        (Setting.generated true).apply (configure values) := by
  intro parameters values
  obtain ⟨-, hcurrent, hiff, -, -⟩ := last_setting_wins parameters
  obtain ⟨-, -, -, hcomm, hrunner⟩ := last_setting_wins values
  refine ⟨hcurrent .params, hcurrent .outArgs, (hiff _).2 fun k => ?_, hcomm _ _ ?_, hrunner _ ?_⟩
  · cases k <;> rfl
  · simp [values, settings, settingsOf, Setting.key]
  · intro x
    constructor
    · intro hx
      obtain rfl | rfl : x = .maxTries 10 ∨ x = .unused false := by
        simpa [values, settings, settingsOf] using hx
      · exact .maxTries rfl
      · exact .unused rfl
    · rintro (h | h | h | h | h) <;> cases h <;> simp [values, settings, settingsOf]

end ConfigOption

end AssignOnce
