import Mathlib.Data.List.Basic
import PlaybookRunner.Settings.Load

/-!
# Settings from several files

A file gives some settings and leaves the others as they are. What a later file gives wins over
what earlier files give, unless it is what the setting usually is: such a value counts as not
given. So each setting is what the last file gives it otherwise than usual, and that is what the
last file gives it if and only if this last value is unusual, or no file gives an unusual one.
-/

namespace PlaybookRunner

variable {τ : Type}

/-- One of the settings. -/
inductive Setting
  | showOutput | debug | format | noColor | logLevel | logJson
deriving DecidableEq, Repr

/-- A part of a file of settings. -/
inductive SettingGroup
  | output | logging
deriving DecidableEq, Repr

namespace SettingGroup

/-- The name of a group in a file. -/
def name : SettingGroup → String
  | output => "output"
  | logging => "logging"

/-- The names of the settings of a group, in their order. -/
def keys : SettingGroup → List String
  | output => ["show_command_output", "debug", "format", "no_color"]
  | logging => ["level", "json"]

end SettingGroup

namespace Setting

/-- The values that a setting takes. -/
abbrev Kind : Setting → Type
  | format => OutputFormat
  | logLevel => String
  | showOutput => Bool
  | debug => Bool
  | noColor => Bool
  | logJson => Bool

instance : (x : Setting) → DecidableEq x.Kind
  | format => inferInstanceAs (DecidableEq OutputFormat)
  | logLevel => inferInstanceAs (DecidableEq String)
  | showOutput => inferInstanceAs (DecidableEq Bool)
  | debug => inferInstanceAs (DecidableEq Bool)
  | noColor => inferInstanceAs (DecidableEq Bool)
  | logJson => inferInstanceAs (DecidableEq Bool)

/-- What a setting is among some settings. -/
def of (s : Settings) : (x : Setting) → x.Kind
  | showOutput => s.showOutput
  | debug => s.debug
  | format => s.format
  | noColor => s.noColor
  | logLevel => s.logLevel
  | logJson => s.logJson

/-- What a setting is if no file gives it. -/
def usual (x : Setting) : x.Kind := x.of {}

/-- The group in which a setting stands. -/
def group : Setting → SettingGroup
  | logLevel => .logging
  | logJson => .logging
  | _ => .output

/-- The name under which a setting stands in its group. -/
def key : Setting → String
  | showOutput => "show_command_output"
  | debug => "debug"
  | format => "format"
  | noColor => "no_color"
  | logLevel => "level"
  | logJson => "json"

/-- Reads the value of a setting. -/
def read? (f : TreeFormat τ) : (x : Setting) → τ → Option x.Kind
  | showOutput => f.bool?
  | debug => f.bool?
  | format => fun tree => (f.word? tree).bind OutputFormat.ofName?
  | noColor => f.bool?
  | logLevel => f.text?
  | logJson => f.bool?

/-- What the tree of its group gives a setting. -/
def inGroup? (f : TreeFormat τ) (x : Setting) (tree : τ) : Option x.Kind :=
  ((f.parts? x.group.keys tree).bind fun parts => parts.get? x.key).bind (x.read? f)

/-- What the tree of a file gives a setting. -/
def inTree? (f : TreeFormat τ) (x : Setting) (tree : τ) : Option x.Kind :=
  ((f.parts? [SettingGroup.output.name, SettingGroup.logging.name] tree).bind fun parts =>
    parts.get? x.group.name).bind (x.inGroup? f)

/-- What a file of a certain name gives a setting. -/
def inText? (x : Setting) (path text : String) : Option x.Kind :=
  match Path.extension? path with
  | some "yml" => (Yaml.Node.read? text).bind (x.inTree? Yaml.Node.treeFormat)
  | some "yaml" => (Yaml.Node.read? text).bind (x.inTree? Yaml.Node.treeFormat)
  | some "json" => (Json.read? text).bind (x.inTree? Json.treeFormat)
  | _ => (Toml.read? text).bind (x.inTree? Toml.treeFormat)

theorem inText?_of_other (x : Setting) {path : String}
    (hyml : Path.extension? path ≠ some "yml") (hyaml : Path.extension? path ≠ some "yaml")
    (hjson : Path.extension? path ≠ some "json") (text : String) :
    x.inText? path text = (Toml.read? text).bind (x.inTree? Toml.treeFormat) := by
  unfold inText?
  split
  next h => exact absurd h hyml
  next h => exact absurd h hyaml
  next h => exact absurd h hjson
  next => rfl

/-- What a file gives a setting. -/
def givenBy? (around : Settings.Surroundings) (x : Setting) (path : String) : Option x.Kind :=
  (around.text path).toOption.bind (x.inText? path)

end Setting

namespace Settings

variable {f : TreeFormat τ} {s s' : Settings} {tree : τ}

/-- A file can be read, and its content is a record of settings. -/
def Surroundings.Provides (around : Surroundings) (path : String) : Prop :=
  ∃ text s, around.text path = .ok text ∧ ofText? path text = some s

theorem part?_eq_some_iff {α : Type} {read : τ → Option α} {usual a : α} {parts : Dict τ}
    {name : String} : part? read usual parts name = some a ↔
      (parts.get? name = none ∧ usual = a) ∨
        ∃ part, parts.get? name = some part ∧ read part = some a := by
  unfold part?
  cases parts.get? name <;> simp

theorem eq_of_part? {α : Type} {read : τ → Option α} {usual a : α} {parts : Dict τ} {name : String}
    (h : part? read usual parts name = some a) : a = ((parts.get? name).bind read).getD usual := by
  obtain ⟨hnone, rfl⟩ | ⟨part, hpart, hread⟩ := part?_eq_some_iff.mp h
  · rw [hnone]
    rfl
  · rw [hpart, Option.bind_some, hread]
    rfl

theorem inGroup?_eq {parts : Dict τ} {x : Setting} (h : f.parts? x.group.keys tree = some parts) :
    x.inGroup? f tree = (parts.get? x.key).bind (x.read? f) := by
  rw [Setting.inGroup?, h, Option.bind_some]

section

variable {x : Setting}

/-- The group of output gives the settings of output. -/
theorem of_output? (h : output? f s tree = some s') (hx : x.group = .output) :
    x.of s' = (x.inGroup? f tree).getD (x.of s) := by
  unfold output? at h
  obtain ⟨parts, hparts, h⟩ := Option.bind_eq_some_iff.mp h
  obtain ⟨showOutput, hshow, h⟩ := Option.bind_eq_some_iff.mp h
  obtain ⟨debug, hdebug, h⟩ := Option.bind_eq_some_iff.mp h
  obtain ⟨format, hformat, h⟩ := Option.bind_eq_some_iff.mp h
  obtain ⟨noColor, hcolor, h⟩ := Option.bind_eq_some_iff.mp h
  cases h
  have hkeys : f.parts? x.group.keys tree = some parts := by rw [hx]; exact hparts
  rw [inGroup?_eq hkeys]
  cases x with
  | showOutput => exact eq_of_part? hshow
  | debug => exact eq_of_part? hdebug
  | format => exact eq_of_part? hformat
  | noColor => exact eq_of_part? hcolor
  | _ => cases hx

theorem of_output?_of_logging (h : output? f s tree = some s') (hx : x.group = .logging) :
    x.of s' = x.of s := by
  unfold output? at h
  simp only [Option.bind_eq_bind, Option.bind_eq_some_iff, Option.pure_def, Option.some.injEq] at h
  obtain ⟨_, _, _, _, _, _, _, _, _, _, rfl⟩ := h
  cases x with
  | logLevel => rfl
  | logJson => rfl
  | _ => cases hx

/-- The group of the log gives the settings of the log. -/
theorem of_logging? (h : logging? f s tree = some s') (hx : x.group = .logging) :
    x.of s' = (x.inGroup? f tree).getD (x.of s) := by
  unfold logging? at h
  obtain ⟨parts, hparts, h⟩ := Option.bind_eq_some_iff.mp h
  obtain ⟨level, hlevel, h⟩ := Option.bind_eq_some_iff.mp h
  obtain ⟨json, hjson, h⟩ := Option.bind_eq_some_iff.mp h
  cases h
  have hkeys : f.parts? x.group.keys tree = some parts := by rw [hx]; exact hparts
  rw [inGroup?_eq hkeys]
  cases x with
  | logLevel => exact eq_of_part? hlevel
  | logJson => exact eq_of_part? hjson
  | _ => cases hx

theorem of_logging?_of_output (h : logging? f s tree = some s') (hx : x.group = .output) :
    x.of s' = x.of s := by
  unfold logging? at h
  simp only [Option.bind_eq_bind, Option.bind_eq_some_iff, Option.pure_def, Option.some.injEq] at h
  obtain ⟨_, _, _, _, _, _, rfl⟩ := h
  cases x with
  | logLevel => cases hx
  | logJson => cases hx
  | _ => rfl

end

/-- A record of settings has what its tree gives, and else what is usual. -/
theorem of_ofTree? (h : ofTree? f tree = some s) (x : Setting) :
    x.of s = (x.inTree? f tree).getD x.usual := by
  unfold ofTree? at h
  obtain ⟨parts, hparts, h⟩ := Option.bind_eq_some_iff.mp h
  obtain ⟨base, hbase, h⟩ := Option.bind_eq_some_iff.mp h
  have htree : x.inTree? f tree = (parts.get? x.group.name).bind (x.inGroup? f) :=
    congrArg (fun o => (o.bind fun parts => parts.get? x.group.name).bind (x.inGroup? f)) hparts
  rw [htree]
  cases hx : x.group with
  | output =>
    have hrest : x.of s = x.of base := by
      obtain ⟨-, rfl⟩ | ⟨group, -, hgroup⟩ := part?_eq_some_iff.mp h
      · rfl
      · exact of_logging?_of_output hgroup hx
    rw [hrest, SettingGroup.name]
    obtain ⟨hnone, rfl⟩ | ⟨group, hsome, hgroup⟩ := part?_eq_some_iff.mp hbase
    · rw [hnone]
      rfl
    · rw [hsome]
      exact of_output? hgroup hx
  | logging =>
    have hrest : x.of base = x.usual := by
      obtain ⟨-, rfl⟩ | ⟨group, -, hgroup⟩ := part?_eq_some_iff.mp hbase
      · rfl
      · exact of_output?_of_logging hgroup hx
    rw [← hrest, SettingGroup.name]
    obtain ⟨hnone, rfl⟩ | ⟨group, hsome, hgroup⟩ := part?_eq_some_iff.mp h
    · rw [hnone]
      rfl
    · rw [hsome]
      exact of_logging? hgroup hx

theorem of_ofText? {path text : String} (h : ofText? path text = some s) (x : Setting) :
    x.of s = (x.inText? path text).getD x.usual := by
  have hread {τ : Type} {f : TreeFormat τ} {o : Option τ} (h : o.bind (ofTree? f) = some s) :
      x.of s = (o.bind (x.inTree? f)).getD x.usual := by
    obtain ⟨tree, rfl, htree⟩ := Option.bind_eq_some_iff.mp h
    exact of_ofTree? htree x
  unfold ofText? at h
  split at h
  next hyml =>
    rw [Setting.inText?, hyml]
    exact hread h
  next hyaml =>
    rw [Setting.inText?, hyaml]
    exact hread h
  next hjson =>
    rw [Setting.inText?, hjson]
    exact hread h
  next hyml hyaml hjson =>
    rw [x.inText?_of_other hyml hyaml hjson]
    exact hread h

/-- What lies over a setting gives way to it if it is as usual. -/
theorem of_overlaid (base other : Settings) (x : Setting) :
    x.of (base.overlaid other) = if x.of other = x.usual then x.of base else x.of other := by
  have hswitch (a b : Bool) : (a || b) = if b = false then a else b := by
    cases a <;> cases b <;> rfl
  cases x with
  | format => rfl
  | logLevel => rfl
  | _ => exact hswitch _ _

/-- What some files give a setting, in their order. -/
def givenBy (around : Surroundings) (x : Setting) (files : List String) : List x.Kind :=
  files.filterMap (x.givenBy? around)

/-- The last of some values of a setting that is not the usual one. -/
def lastUnusual? (x : Setting) (values : List x.Kind) : Option x.Kind :=
  (values.filter fun value => value ≠ x.usual).getLast?

theorem lastUnusual?_cons {x : Setting} (value : x.Kind) (values : List x.Kind)
    (rest : x.Kind) : (lastUnusual? x (value :: values)).getD rest =
      (lastUnusual? x values).getD (if value = x.usual then rest else value) := by
  unfold lastUnusual?
  by_cases h : value = x.usual
  · rw [List.filter_cons_of_neg (by simpa using h), if_pos h]
  · rw [List.filter_cons_of_pos (by simpa using h), if_neg h, List.getLast?_cons, Option.getD_some]

variable {around : Surroundings}

/-- A file lays what it gives over the settings before it. -/
theorem withFile_of_provides {path : String} (h : around.Provides path) (base : Settings) :
    ∃ s, withFile around base path = .ok s ∧
      ∀ x : Setting,
        x.of s = (lastUnusual? x (x.givenBy? around path).toList).getD (x.of base) := by
  obtain ⟨text, other, htext, hother⟩ := h
  refine ⟨base.overlaid other, ?_, fun x => ?_⟩
  · simp only [withFile, htext, hother]
  · have hgiven : x.givenBy? around path = x.inText? path text := by
      rw [Setting.givenBy?, htext]
      rfl
    rw [of_overlaid, of_ofText? hother, hgiven]
    cases x.inText? path text with
    | none => exact if_pos rfl
    | some value => exact (lastUnusual?_cons value [] (x.of base)).symm

theorem foldlM_withFile {files : List String} (h : ∀ path ∈ files, around.Provides path)
    (base : Settings) : ∃ s, files.foldlM (withFile around) base = .ok s ∧
      ∀ x : Setting, x.of s = (lastUnusual? x (givenBy around x files)).getD (x.of base) := by
  induction files generalizing base with
  | nil => exact ⟨base, rfl, fun x => rfl⟩
  | cons path rest ih =>
    obtain ⟨hpath, hrest⟩ := List.forall_mem_cons.mp h
    obtain ⟨middle, hmiddle, hof⟩ := withFile_of_provides hpath base
    obtain ⟨s, hs, hlast⟩ := ih hrest middle
    refine ⟨s, ?_, fun x => ?_⟩
    · rw [List.foldlM_cons, hmiddle]
      exact hs
    · rw [hlast, hof, givenBy, givenBy, List.filterMap_cons]
      cases x.givenBy? around path with
      | none => rfl
      | some value =>
        dsimp only
        rw [Option.toList_some, lastUnusual?_cons, lastUnusual?_cons]
        rfl

theorem lastUnusual?_eq_none_iff {x : Setting} {values : List x.Kind} :
    lastUnusual? x values = none ↔ ∀ value ∈ values, value = x.usual := by
  simp [lastUnusual?]

theorem lastUnusual?_of_last {x : Setting} {values : List x.Kind} {value : x.Kind}
    (hlast : values.getLast? = some value) (h : value ≠ x.usual) :
    lastUnusual? x values = some value := by
  obtain ⟨before, rfl⟩ := List.getLast?_eq_some_iff.mp hlast
  rw [lastUnusual?, List.filter_append, List.filter_cons_of_pos (by simpa using h), List.filter_nil]
  exact List.getLast?_concat

theorem lastUnusual?_ne {x : Setting} {values : List x.Kind} {value : x.Kind}
    (h : lastUnusual? x values = some value) : value ≠ x.usual := by
  have hmem := List.mem_of_getLast? h
  simpa using (List.mem_filter.mp hmem).2

/-- The last value counts unless it is the usual one after an unusual one. -/
theorem lastUnusual?_eq_last_iff {x : Setting} {values : List x.Kind} :
    (lastUnusual? x values).getD x.usual = values.getLast?.getD x.usual ↔
      values.getLast? ≠ some x.usual ∨ ∀ value ∈ values, value = x.usual := by
  cases hlast : values.getLast? with
  | none =>
    obtain rfl := List.getLast?_eq_none_iff.mp hlast
    exact iff_of_true rfl (.inl nofun)
  | some value =>
    by_cases hvalue : value = x.usual
    · subst hvalue
      rw [Option.getD_some, ← lastUnusual?_eq_none_iff]
      cases hunusual : lastUnusual? x values with
      | none => simp
      | some other => simpa using lastUnusual?_ne hunusual
    · rw [lastUnusual?_of_last hlast hvalue]
      exact iff_of_true rfl (.inl fun h => hvalue (Option.some.inj h))

/-- After any files that can be used, a setting is what the last file gives it otherwise than
usual. That is what the last file gives it unless this value is the usual one while another
file gives an unusual one. -/
theorem last_unusual_value_wins (around : Surroundings) {files : List String}
    (h : ∀ path ∈ files, around.Provides path) :
    ∃ s, files.foldlM (withFile around) {} = .ok s ∧
      (∀ named, (paths around.environment named).filter around.isThere = files →
        load around named = .ok (s.withEnvironment around.environment)) ∧
      ∀ x : Setting, x.of s = (lastUnusual? x (givenBy around x files)).getD x.usual ∧
        (x.of s = (givenBy around x files).getLast?.getD x.usual ↔
          (givenBy around x files).getLast? ≠ some x.usual ∨
            ∀ value ∈ givenBy around x files, value = x.usual) := by
  obtain ⟨s, hs, hof⟩ := foldlM_withFile h {}
  refine ⟨s, hs, ?_, fun x => ⟨hof x, ?_⟩⟩
  · rintro named rfl
    rw [load, hs]
    rfl
  · rw [hof]
    exact lastUnusual?_eq_last_iff

/-- A file of the user and one of the working directory. -/
def layers : List String := ["/home/.playrun.toml", "playrun.toml"]

/-- Surroundings in which the two files have these texts. -/
def layered (user project : String) : Surroundings where
  environment := [("HOME", "/home")]
  isThere := layers.contains
  text := fun path => .ok (if path = "playrun.toml" then project else user)

theorem provides_layered {user project : String}
    (huser : (ofText? "/home/.playrun.toml" user).isSome)
    (hproject : (ofText? "playrun.toml" project).isSome) :
    ∀ path ∈ layers, (layered user project).Provides path := by
  obtain ⟨s, hs⟩ := Option.isSome_iff_exists.mp huser
  obtain ⟨t, ht⟩ := Option.isSome_iff_exists.mp hproject
  simpa [layers] using ⟨⟨user, s, rfl, hs⟩, ⟨project, t, rfl, ht⟩⟩

/-- The second file changes the format and leaves the level alone. -/
def recordOverChunks : Surroundings :=
  layered "[output]\nformat = \"json\"\n[logging]\nlevel = \"info\"\n"
    "[output]\nformat = \"struct\"\ndebug = false\n"

theorem last_unusual_value_wins_layered :
    (∀ path ∈ layers, recordOverChunks.Provides path) ∧
      (paths recordOverChunks.environment none).filter recordOverChunks.isThere = layers ∧
      ∃ s, layers.foldlM (withFile recordOverChunks) {} = .ok s ∧
        load recordOverChunks none = .ok (s.withEnvironment recordOverChunks.environment) ∧
        s.format = .record ∧ s.debug = false ∧ s.logLevel = "info" := by
  have hprovides : ∀ path ∈ layers, recordOverChunks.Provides path :=
    provides_layered (by decide +kernel) (by decide +kernel)
  have hfiles : (paths recordOverChunks.environment none).filter recordOverChunks.isThere =
      layers := by decide +kernel
  obtain ⟨s, hs, hload, hof⟩ := last_unusual_value_wins recordOverChunks hprovides
  refine ⟨hprovides, hfiles, s, hs, hload none hfiles, ?_, ?_, ?_⟩
  · exact (hof .format).1.trans (by decide +kernel)
  · exact (hof .debug).1.trans (by decide +kernel)
  · exact (hof .logLevel).1.trans (by decide +kernel)

/-- The second file asks for the usual format, which the first does not. -/
def consoleOverChunks : Surroundings :=
  layered "[output]\nformat = \"json\"\n" "[output]\nformat = \"cli\"\n"

/-- The file of the working directory asks for lines for people, and gets what the file of the
user asked for. -/
theorem usual_value_is_passed_over :
    (∀ path ∈ layers, consoleOverChunks.Provides path) ∧
      (paths consoleOverChunks.environment none).filter consoleOverChunks.isThere = layers ∧
      (givenBy consoleOverChunks .format layers).getLast? = some OutputFormat.console ∧
      ∃ s, layers.foldlM (withFile consoleOverChunks) {} = .ok s ∧ s.format = .chunks ∧
        Setting.format.of s ≠
          (givenBy consoleOverChunks .format layers).getLast?.getD Setting.format.usual := by
  have hprovides : ∀ path ∈ layers, consoleOverChunks.Provides path :=
    provides_layered (by decide +kernel) (by decide +kernel)
  have hlast : (givenBy consoleOverChunks .format layers).getLast? = some OutputFormat.console := by
    decide +kernel
  obtain ⟨s, hs, hof⟩ := foldlM_withFile hprovides {}
  have hformat : s.format = .chunks := (hof .format).trans (by decide +kernel)
  refine ⟨hprovides, by decide +kernel, hlast, s, hs, hformat, ?_⟩
  rw [hlast, Setting.of, hformat]
  exact nofun

end Settings

end PlaybookRunner
