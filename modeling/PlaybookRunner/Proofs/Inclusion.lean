import Mathlib.Data.List.Chain
import Mathlib.Logic.Relation
import PlaybookRunner.Playbook.Loader

/-!
# Chains of inclusions

A file includes others, and these include others again. The tasks of a list can be put
together if and only if everything that is reached this way reads as a list of entries,
and no chain of inclusions is longer than the limit. A playbook loads if this holds for
the lists of all its plays, unless their variables cannot be had.
-/

namespace PlaybookRunner

/-- The texts of some files. -/
def TextSource.ofFiles (files : Dict String) : TextSource := fun path =>
  match files.get? path with
  | some text => .ok text
  | none => .error "no such file"

namespace Playbook

open Relation
open Yaml (Data)

variable {source : TextSource} {enter : String → Except Error (List Task)} {here : Location}

/-- The directory that the paths in an included file start from. -/
def dirOf (path : String) : String := (Path.parent? path).getD "."

/-- The entries of a file, if it can be read and holds a list of them or nothing. -/
def opened? (source : TextSource) (path : String) : Option (List Data) :=
  match source path with
  | .ok text => (Data.read? text).bind fun data => (listed path data).toOption
  | .error _ => none

/-- The file that an entry includes, as it names it. -/
def fileOf? (data : Data) : Option String :=
  match Entry.ofData data with
  | .ok (.inclusion file _) => some file
  | _ => none

/-- The files that the entries of a list in a directory include. -/
def inclusions (base : String) (entries : List Data) : List String :=
  (entries.filterMap fileOf?).map (Path.join base)

/-- The first file includes the second. -/
def Leads (source : TextSource) (p q : String) : Prop :=
  ∃ entries, opened? source p = some entries ∧ q ∈ inclusions (dirOf p) entries

/-- The files include each other in a row, and the list includes the first. -/
structure Chain (source : TextSource) (base : String) (entries : List Data)
    (files : List String) : Prop where
  first : ∀ path ∈ files.head?, path ∈ inclusions base entries
  rest : files.IsChain (Leads source)

/-- The list comes to the file through inclusions. -/
def Reaches (source : TextSource) (base : String) (entries : List Data) (path : String) : Prop :=
  ∃ first ∈ inclusions base entries, ReflTransGen (Leads source) first path

/-- Each entry is that of a task or of an inclusion. -/
def EntriesRead (entries : List Data) : Prop :=
  ∀ data ∈ entries, ∃ entry, Entry.ofData data = .ok entry

/-- The file reads as a list of entries. -/
def FileReads (source : TextSource) (path : String) : Prop :=
  ∃ entries, opened? source path = some entries ∧ EntriesRead entries

/-- The list reads, and so does every file that it reaches. -/
structure ReadsThrough (source : TextSource) (base : String) (entries : List Data) : Prop where
  own : EntriesRead entries
  files : ∀ path, Reaches source base entries path → FileReads source path

theorem opened?_eq_some {path : String} {entries : List Data} :
    opened? source path = some entries ↔ ∃ text data, source path = .ok text ∧
      Data.read? text = some data ∧ listed path data = .ok entries := by
  unfold opened?
  cases source path with
  | error reason => simp
  | ok text => simp [Option.bind_eq_some_iff, toOption_eq_some_iff]

/-! ### Lists of entries -/

theorem tasksFrom_cons_eq_ok {index : Nat} {data : Data} {rest : List Data} {ts : List Task} :
    tasksFrom enter here index (data :: rest) = .ok ts ↔
      ∃ first others, entryTasks enter here index data = .ok first ∧
        tasksFrom enter here (index + 1) rest = .ok others ∧ first ++ others = ts := by
  rw [tasksFrom]
  simp only [bind_eq_ok_iff, pure, Except.pure, Except.ok.injEq, exists_and_left]

theorem entryTasks_eq_ok {index : Nat} {data : Data} {ts : List Task} :
    entryTasks enter here index data = .ok ts ↔
      (∃ t, Entry.ofData data = .ok (.task t) ∧ ts = [t]) ∨
      ∃ file vars inner, Entry.ofData data = .ok (.inclusion file vars) ∧
        enter (Path.join here.base file) = .ok inner ∧ ts = inner.map (included vars) := by
  unfold entryTasks
  cases Entry.ofData data with
  | error message => simp
  | ok entry =>
    cases entry with
    | task t => simp [eq_comm]
    | inclusion file vars =>
      dsimp only
      rw [map_eq_ok_iff]
      simp [eq_comm]

/-- The tasks of an entry can be had if those of the file can that it includes. -/
theorem exists_entryTasks_iff {index : Nat} {data : Data} :
    (∃ ts, entryTasks enter here index data = .ok ts) ↔
      (∃ entry, Entry.ofData data = .ok entry) ∧
        ∀ file, fileOf? data = some file → ∃ ts, enter (Path.join here.base file) = .ok ts := by
  simp only [entryTasks_eq_ok, fileOf?]
  cases Entry.ofData data with
  | error message => simp
  | ok entry =>
    cases entry with
    | task t => simp
    | inclusion file vars => simp

theorem exists_tasksFrom_iff {index : Nat} {entries : List Data} :
    (∃ ts, tasksFrom enter here index entries = .ok ts) ↔
      EntriesRead entries ∧ ∀ path ∈ inclusions here.base entries, ∃ ts, enter path = .ok ts := by
  induction entries generalizing index with
  | nil => simp [tasksFrom, EntriesRead, inclusions]
  | cons data rest ih =>
    have hcons : (∃ ts, tasksFrom enter here index (data :: rest) = .ok ts) ↔
        (∃ ts, entryTasks enter here index data = .ok ts) ∧
          ∃ ts, tasksFrom enter here (index + 1) rest = .ok ts := by
      simp only [tasksFrom_cons_eq_ok]
      constructor
      · rintro ⟨_, first, others, hfirst, hothers, -⟩
        exact ⟨⟨first, hfirst⟩, others, hothers⟩
      · rintro ⟨⟨first, hfirst⟩, others, hothers⟩
        exact ⟨_, first, others, hfirst, hothers, rfl⟩
    rw [hcons, exists_entryTasks_iff, ih]
    simp only [EntriesRead, inclusions, List.forall_mem_map, List.mem_filterMap, List.mem_cons,
      or_and_right, exists_or, exists_eq_left, or_imp, forall_and, forall_eq]
    tauto

/-! ### Files -/

theorem inclusion_of_opened {path : String} {entries : List Data}
    (h : opened? source path = some entries) (n : Nat) :
    inclusion source (n + 1) path =
      tasksFrom (inclusion source n) { path, base := dirOf path } 1 entries := by
  obtain ⟨text, data, htext, hdata, hlisted⟩ := opened?_eq_some.mp h
  simp only [inclusion, textAt, htext, document, hdata, hlisted, bind, Except.bind]
  rfl

theorem exists_opened_of_inclusion {n : Nat} {path : String} {ts : List Task}
    (h : inclusion source (n + 1) path = .ok ts) :
    ∃ entries, opened? source path = some entries := by
  rw [inclusion] at h
  simp only [bind_eq_ok_iff] at h
  obtain ⟨text, htext, data, hdata, entries, hlisted, -⟩ := h
  refine ⟨entries, opened?_eq_some.mpr ⟨text, data, ?_, ?_, hlisted⟩⟩
  · unfold textAt at htext
    split at htext <;> cases htext
    assumption
  · unfold document at hdata
    split at hdata <;> cases hdata
    assumption

/-- A file that may be followed by more is put together of the files that it includes. -/
theorem exists_inclusion_succ_iff {n : Nat} {path : String} :
    (∃ ts, inclusion source (n + 1) path = .ok ts) ↔
      FileReads source path ∧
        ∀ next, Leads source path next → ∃ ts, inclusion source n next = .ok ts := by
  constructor
  · rintro ⟨ts, hts⟩
    obtain ⟨entries, hopened⟩ := exists_opened_of_inclusion hts
    rw [inclusion_of_opened hopened] at hts
    obtain ⟨hread, hinner⟩ := exists_tasksFrom_iff.mp ⟨ts, hts⟩
    refine ⟨⟨entries, hopened, hread⟩, ?_⟩
    rintro next ⟨others, hothers, hnext⟩
    rw [hopened] at hothers
    obtain rfl := Option.some.inj hothers
    exact hinner next hnext
  · rintro ⟨⟨entries, hopened, hread⟩, hinner⟩
    rw [inclusion_of_opened hopened]
    exact exists_tasksFrom_iff.mpr
      ⟨hread, fun next hnext => hinner next ⟨entries, hopened, hnext⟩⟩

/-- The tasks of a file can be had within so many inclusions if and only if no chain from
it is longer, and all that it leads to reads. -/
theorem exists_inclusion_iff {n : Nat} {path : String} :
    (∃ ts, inclusion source n path = .ok ts) ↔
      (∀ files, (path :: files).IsChain (Leads source) → files.length < n) ∧
        ∀ last, ReflTransGen (Leads source) path last → FileReads source last := by
  induction n generalizing path with
  | zero =>
    constructor
    · rintro ⟨ts, hts⟩
      cases hts
    · rintro ⟨hshort, -⟩
      exact absurd (hshort [] (.singleton _)) (Nat.not_lt_zero _)
  | succ n ih =>
    rw [exists_inclusion_succ_iff]
    simp only [ih]
    constructor
    · rintro ⟨hread, hnext⟩
      refine ⟨fun files hfiles => ?_, fun last hlast => ?_⟩
      · cases files with
        | nil => exact Nat.zero_lt_succ n
        | cons next files =>
          obtain ⟨hleads, hrest⟩ := List.isChain_cons_cons.mp hfiles
          exact Nat.succ_lt_succ ((hnext next hleads).1 files hrest)
      · rcases hlast.cases_head with rfl | ⟨next, hleads, hrest⟩
        · exact hread
        · exact (hnext next hleads).2 last hrest
    · rintro ⟨hshort, hread⟩
      refine ⟨hread path .refl, fun next hleads => ⟨fun files hfiles => ?_, fun last hlast => ?_⟩⟩
      · exact Nat.lt_of_succ_lt_succ (hshort (next :: files) (.cons_cons hleads hfiles))
      · exact hread last (.head hleads hlast)

/-- The tasks of a list of a play can be had if and only if no chain of inclusions is too
long, and all that the list reaches reads. -/
theorem exists_tasks_iff {entries : List Data} :
    (∃ ts, tasks source here entries = .ok ts) ↔
      (∀ files, Chain source here.base entries files → files.length ≤ inclusionLimit) ∧
        ReadsThrough source here.base entries := by
  rw [tasks, exists_tasksFrom_iff]
  simp only [exists_inclusion_iff]
  constructor
  · rintro ⟨hown, hfirst⟩
    refine ⟨fun files hfiles => ?_, hown, ?_⟩
    · cases files with
      | nil => exact Nat.zero_le _
      | cons first rest => exact (hfirst first (hfiles.first first rfl)).1 rest hfiles.rest
    · rintro path ⟨first, hmem, hpath⟩
      exact (hfirst first hmem).2 path hpath
  · rintro ⟨hshort, hown, hfiles⟩
    refine ⟨hown, fun first hmem => ⟨fun rest hrest => ?_, fun last hlast => ?_⟩⟩
    · have hchain : Chain source here.base entries (first :: rest) :=
        ⟨fun path hpath => Option.some.inj hpath ▸ hmem, hrest⟩
      exact hshort (first :: rest) hchain
    · exact hfiles last ⟨first, hmem, hlast⟩

/-! ### Playbooks -/

/-- The variables of a play, its files included. -/
def playVars (source : TextSource) (here : Location) (outline : PlayOutline) :
    Except Error Vars := do
  let vars ←
    match Entry.varsOf outline.vars with
    | .ok vars => pure vars
    | .error message => throw (.playbook here.path (.rule message))
  varsWith source here vars outline.varsFiles

/-- The lists of entries of a play: of tasks, of handlers, and of each module. -/
def listsOf (outline : PlayOutline) : List (List Data) :=
  outline.tasks :: outline.handlers :: outline.modules.map Prod.snd

/-- The outlines of the plays of a text. -/
def outlines? (text : String) : Option (List PlayOutline) := do
  let data ← Data.read? text
  let plays ← (listedPlays "" data).toOption
  plays.mapM PlayOutline.ofData?

/-- What a playbook is loaded from: a file, or a text and the directory that its paths
start from. -/
inductive Origin
  | file (path : String)
  | text (base : Option String) (text : String)

namespace Origin

def load (source : TextSource) : Origin → Except Error Playbook
  | file path => Playbook.load source path
  | text base s => Playbook.read source base s

/-- Where the paths of a playbook start from. -/
def location : Origin → Location
  | file path => { path, base := baseOf path }
  | text base _ => { path := "<string>", base := base.getD "." }

def text? (source : TextSource) : Origin → Option String
  | file path => (source path).toOption
  | text _ s => some s

/-- The outlines of the plays that are loaded. -/
def outlines? (source : TextSource) (origin : Origin) : Option (List PlayOutline) :=
  (origin.text? source).bind Playbook.outlines?

end Origin

/-- The play has the parts of the outline, each list put together. -/
structure Builds (source : TextSource) (here : Location) (outline : PlayOutline) (p : Play) :
    Prop where
  name : p.name = outline.name
  vars : playVars source here outline = .ok p.vars
  tasks : tasks source here outline.tasks = .ok p.tasks
  handlers : Playbook.tasks source here outline.handlers = .ok p.handlers
  modules : List.Forall₂ (fun e m => m.1 = e.1 ∧ m.2.name = e.1 ∧
    Playbook.tasks source here e.2 = .ok m.2.tasks) outline.modules p.modules

/-- A play that is built has put its lists together. -/
theorem Builds.exists_tasks {outline : PlayOutline} {p : Play} (h : Builds source here outline p) :
    ∀ entries ∈ listsOf outline, ∃ ts, Playbook.tasks source here entries = .ok ts := by
  have hmodules : ∀ e ∈ outline.modules, ∃ ts, Playbook.tasks source here e.2 = .ok ts :=
    ((List.forall₂_and_left _ _).mp (h.modules.imp fun e m hm => ⟨⟨_, hm.2.2⟩, hm⟩)).1
  simp only [listsOf, List.forall_mem_cons, List.forall_mem_map]
  exact ⟨⟨_, h.tasks⟩, ⟨_, h.handlers⟩, hmodules⟩

theorem modules_eq_ok_iff {es : Dict (List Data)} {ms : Dict Module} :
    modules source here es = .ok ms ↔ List.Forall₂ (fun e m => m.1 = e.1 ∧ m.2.name = e.1 ∧
      tasks source here e.2 = .ok m.2.tasks) es ms := by
  induction es generalizing ms with
  | nil =>
    rw [List.forall₂_nil_left_iff]
    simp [modules, eq_comm]
  | cons e es ih =>
    obtain ⟨name, entries⟩ := e
    rw [List.forall₂_cons_left_iff, modules]
    simp only [bind_eq_ok_iff, ih, pure, Except.pure, Except.ok.injEq]
    constructor
    · rintro ⟨ts, hts, others, hothers, rfl⟩
      exact ⟨_, _, ⟨rfl, rfl, hts⟩, hothers, rfl⟩
    · rintro ⟨⟨key, m⟩, others, ⟨hkey, hname, hts⟩, hothers, rfl⟩
      obtain rfl : m.name = name := hname
      obtain rfl : key = m.name := hkey
      exact ⟨_, hts, others, hothers, rfl⟩

theorem exists_modules {es : Dict (List Data)}
    (h : ∀ e ∈ es, ∃ ts, tasks source here e.2 = .ok ts) :
    ∃ ms, modules source here es = .ok ms := by
  induction es with
  | nil => exact ⟨[], rfl⟩
  | cons e es ih =>
    obtain ⟨⟨ts, hts⟩, hrest⟩ := List.forall_mem_cons.mp h
    obtain ⟨ms, hms⟩ := ih hrest
    refine ⟨(e.1, { name := e.1, tasks := ts }) :: ms, modules_eq_ok_iff.mpr (.cons ?_ ?_)⟩
    · exact ⟨rfl, rfl, hts⟩
    · exact modules_eq_ok_iff.mp hms

theorem play_eq (source : TextSource) (here : Location) (outline : PlayOutline) :
    play source here outline = playVars source here outline >>= fun vars => do
      let ordinary ← tasks source here outline.tasks
      let handlers ← tasks source here outline.handlers
      let modules ← modules source here outline.modules
      return { name := outline.name, tasks := ordinary, handlers, modules, vars } := by
  unfold play playVars
  cases Entry.varsOf outline.vars <;> rfl

theorem play_eq_ok_iff {outline : PlayOutline} {p : Play} :
    play source here outline = .ok p ↔ Builds source here outline p := by
  rw [play_eq]
  simp only [bind_eq_ok_iff, modules_eq_ok_iff, pure, Except.pure, Except.ok.injEq]
  constructor
  · rintro ⟨vars, hvars, ts, hts, hs, hhs, ms, hms, rfl⟩
    exact ⟨rfl, hvars, hts, hhs, hms⟩
  · rintro ⟨hname, hvars, hts, hhs, hms⟩
    exact ⟨_, hvars, _, hts, _, hhs, _, hms, hname ▸ rfl⟩

/-- Where the lists of a play can be put together, it fails only for its variables. -/
theorem play_ok_or_vars {outline : PlayOutline}
    (h : ∀ entries ∈ listsOf outline, ∃ ts, tasks source here entries = .ok ts) :
    (∃ p, play source here outline = .ok p) ∨
      ∃ e, playVars source here outline = .error e ∧ play source here outline = .error e := by
  obtain ⟨⟨ts, hts⟩, ⟨hs, hhs⟩, hmodules⟩ := by
    simpa only [listsOf, List.forall_mem_cons, List.forall_mem_map] using h
  obtain ⟨ms, hms⟩ := exists_modules hmodules
  cases hvars : playVars source here outline with
  | ok vars =>
    left
    let p : Play :=
      { name := outline.name, tasks := ts, handlers := hs, modules := ms, vars }
    have hp : Builds source here outline p := ⟨rfl, hvars, hts, hhs, modules_eq_ok_iff.mp hms⟩
    exact ⟨p, play_eq_ok_iff.mpr hp⟩
  | error e =>
    right
    refine ⟨e, rfl, ?_⟩
    rw [play_eq, hvars]
    rfl

/-- The data of plays and their outlines. -/
abbrev Outlined : List Data → List PlayOutline → Prop :=
  List.Forall₂ fun data outline => PlayOutline.ofData? data = some outline

theorem playsFrom_cons {index : Nat} {data : Data} {rest : List Data} {outline : PlayOutline}
    (h : PlayOutline.ofData? data = some outline) :
    playsFrom source here index (data :: rest) = play source here outline >>= fun first =>
      playsFrom source here (index + 1) rest >>= fun others => pure (first :: others) := by
  rw [playsFrom, h]

theorem playsFrom_eq_ok_iff {index : Nat} {datas : List Data} {outlines : List PlayOutline}
    {ps : List Play} (h : Outlined datas outlines) :
    playsFrom source here index datas = .ok ps ↔
      List.Forall₂ (Builds source here) outlines ps := by
  induction h generalizing index ps with
  | nil =>
    rw [List.forall₂_nil_left_iff]
    simp [playsFrom, eq_comm]
  | cons hfirst _ ih =>
    rw [playsFrom_cons hfirst, List.forall₂_cons_left_iff]
    simp only [bind_eq_ok_iff, ih, play_eq_ok_iff, pure, Except.pure, Except.ok.injEq]
    constructor
    · rintro ⟨p, hp, ps, hps, rfl⟩
      exact ⟨p, ps, hp, hps, rfl⟩
    · rintro ⟨p, ps, hp, hps, rfl⟩
      exact ⟨p, hp, ps, hps, rfl⟩

theorem playsFrom_ok_or_vars (index : Nat) {datas : List Data} {outlines : List PlayOutline}
    (houtlines : Outlined datas outlines)
    (h : ∀ o ∈ outlines, ∀ entries ∈ listsOf o, ∃ ts, tasks source here entries = .ok ts) :
    (∃ ps, playsFrom source here index datas = .ok ps) ∨
      ∃ o ∈ outlines, ∃ e, playVars source here o = .error e ∧
        playsFrom source here index datas = .error e := by
  induction houtlines generalizing index with
  | nil => exact .inl ⟨[], rfl⟩
  | @cons data outline rest outlines hfirst _ ih =>
    obtain ⟨hlists, hrest⟩ := List.forall_mem_cons.mp h
    rw [playsFrom_cons hfirst]
    rcases play_ok_or_vars hlists with ⟨p, hp⟩ | ⟨e, hvars, he⟩
    · rcases ih (index + 1) hrest with ⟨ps, hps⟩ | ⟨o, ho, e, hvars, he⟩
      · left
        exact ⟨p :: ps, by rw [hp, hps]; rfl⟩
      · right
        exact ⟨o, List.mem_cons_of_mem _ ho, e, hvars, by rw [hp, he]; rfl⟩
    · right
      exact ⟨outline, List.mem_cons_self, e, hvars, by rw [he]; rfl⟩

theorem outlined_of_mapM {datas : List Data} {outlines : List PlayOutline}
    (h : datas.mapM PlayOutline.ofData? = some outlines) : Outlined datas outlines := by
  induction datas generalizing outlines with
  | nil =>
    cases h
    exact .nil
  | cons data datas ih =>
    rw [List.mapM_cons] at h
    obtain ⟨outline, hfirst, h⟩ := Option.bind_eq_some_iff.mp h
    obtain ⟨rest, hrest, h⟩ := Option.bind_eq_some_iff.mp h
    cases h
    exact .cons hfirst (ih hrest)

namespace Origin

variable {origin : Origin} {outlines : List PlayOutline}

/-- To load is to build the plays of the outlines. -/
theorem exists_load_eq (h : origin.outlines? source = some outlines) :
    ∃ datas, Outlined datas outlines ∧ origin.load source =
      playsFrom source origin.location 1 datas >>= fun plays =>
        pure { plays, baseDir := origin.location.base } := by
  obtain ⟨text, htext, h⟩ := Option.bind_eq_some_iff.mp h
  obtain ⟨data, hdata, h⟩ := Option.bind_eq_some_iff.mp h
  obtain ⟨datas, hdatas, h⟩ := Option.bind_eq_some_iff.mp h
  have hlisted (path : String) : listedPlays path data = .ok datas := by
    have hanywhere := toOption_eq_some_iff.mp hdatas
    unfold listedPlays at hanywhere ⊢
    split at hanywhere <;> cases hanywhere <;> rfl
  have hload : origin.load source = ofText source origin.location text := by
    cases origin with
    | file path =>
      have hsource : source path = .ok text := toOption_eq_some_iff.mp htext
      simp only [load, Playbook.load, textAt, hsource]
      rfl
    | text base s =>
      cases htext
      rfl
  refine ⟨datas, outlined_of_mapM h, ?_⟩
  rw [hload]
  simp only [ofText, document, hdata, bind, Except.bind, hlisted]

theorem load_eq_ok_iff (h : origin.outlines? source = some outlines) {book : Playbook} :
    origin.load source = .ok book ↔ book.baseDir = origin.location.base ∧
      List.Forall₂ (Builds source origin.location) outlines book.plays := by
  obtain ⟨datas, houtlined, hload⟩ := exists_load_eq h
  rw [hload]
  simp only [bind_eq_ok_iff, playsFrom_eq_ok_iff houtlined, pure, Except.pure, Except.ok.injEq]
  constructor
  · rintro ⟨ps, hps, rfl⟩
    exact ⟨rfl, hps⟩
  · rintro ⟨hbase, hps⟩
    exact ⟨_, hps, hbase ▸ rfl⟩

/-- Where the lists of all plays can be put together, loading fails only for the variables
of a play. -/
theorem load_ok_or_vars (h : origin.outlines? source = some outlines)
    (hlists : ∀ o ∈ outlines, ∀ entries ∈ listsOf o,
      ∃ ts, tasks source origin.location entries = .ok ts) :
    (∃ book, origin.load source = .ok book) ∨
      ∃ o ∈ outlines, ∃ e, playVars source origin.location o = .error e ∧
        origin.load source = .error e := by
  obtain ⟨datas, houtlined, hload⟩ := exists_load_eq h
  rw [hload]
  rcases playsFrom_ok_or_vars 1 houtlined hlists with ⟨ps, hps⟩ | ⟨o, ho, e, hvars, he⟩
  · left
    exact ⟨_, by rw [hps]; rfl⟩
  · right
    exact ⟨o, ho, e, hvars, by rw [he]; rfl⟩

/-- A playbook that loads has put the lists of all its plays together. -/
theorem exists_tasks_of_load {book : Playbook} (h : origin.outlines? source = some outlines)
    (hload : origin.load source = .ok book) :
    ∀ o ∈ outlines, ∀ entries ∈ listsOf o, ∃ ts, tasks source origin.location entries = .ok ts := by
  obtain ⟨-, hbuilds⟩ := (load_eq_ok_iff h).mp hload
  exact ((List.forall₂_and_left _ _).mp (hbuilds.imp fun o p hp => ⟨hp.exists_tasks, hp⟩)).1

end Origin

end Playbook

end PlaybookRunner
