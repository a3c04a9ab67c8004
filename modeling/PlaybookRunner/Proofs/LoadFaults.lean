import PlaybookRunner.Proofs.Inclusion

/-!
# Faults of files

Loading reads the file of the playbook, the files that its lists come to through
inclusions, and the files of variables that its plays name. Where it fails, something is
wrong with one of them, and the error names that file. The exception is a file of
variables that cannot be read or is no document of its format: what is wrong is told
there without the file.
-/

namespace PlaybookRunner

namespace VarsFile

/-- The file can be read and is a document that holds something else than variables. -/
inductive AtFault (source : TextSource) (path : String) : LoadFault → Prop
  | notMapping {text : String} {json : Json} (htext : source path = .ok text)
      (htree : tree path text = .ok json)
      (h : ∀ vars, ofValue path (.ofJson json.canonical) ≠ .ok vars) :
      AtFault source path
        (.rule ("vars file must be a mapping, found " ++ (Value.ofJson json.canonical).typeName))

/-- The file cannot be read or is no document, and the error does not say which file it is. -/
inductive Unnamed (source : TextSource) (path : String) : Error → Prop
  | unreadable {reason : String} (h : source path = .error reason) :
      Unnamed source path (.io reason)
  | badJson {text : String} (htext : source path = .ok text)
      (hformat : Path.extension? path = some "json") (h : Json.read? text = none) :
      Unnamed source path .json
  | badYaml {text : String} (htext : source path = .ok text)
      (hformat : Path.extension? path ≠ some "json") (h : Yaml.json? text = none) :
      Unnamed source path .yaml

variable {source : TextSource} {path : String} {e : Error}

theorem unnamed_of_tree {text : String} (htext : source path = .ok text)
    (h : tree path text = .error e) : Unnamed source path e := by
  unfold tree at h
  by_cases hformat : Path.extension? path = some "json"
  · rw [if_pos (by simp [hformat])] at h
    cases hread : Json.read? text with
    | none =>
      rw [hread] at h
      cases h
      exact .badJson htext hformat hread
    | some json =>
      rw [hread] at h
      cases h
  · rw [if_neg (by simp [hformat])] at h
    cases hread : Yaml.json? text with
    | none =>
      rw [hread] at h
      cases h
      exact .badYaml htext hformat hread
    | some json =>
      rw [hread] at h
      cases h

theorem ofValue_eq_error {value : Value} (h : ofValue path value = .error e) :
    e = .playbook path (.rule ("vars file must be a mapping, found " ++ value.typeName)) := by
  unfold ofValue at h
  split at h <;> cases h
  rfl

theorem load_eq_error (h : load source path = .error e) :
    (∃ fault, e = .playbook path fault ∧ AtFault source path fault) ∨ Unnamed source path e := by
  unfold load at h
  cases htext : source path with
  | error reason =>
    rw [htext] at h
    cases h
    exact .inr (.unreadable htext)
  | ok text =>
    simp only [htext] at h
    rcases bind_eq_error_iff.mp h with htree | ⟨json, htree, hvalue⟩
    · exact .inr (unnamed_of_tree htext htree)
    · left
      refine ⟨_, ofValue_eq_error hvalue, .notMapping htext htree fun vars hvars => ?_⟩
      rw [hvalue] at hvars
      cases hvars

end VarsFile

namespace Playbook

open Relation
open Yaml (Data)

/-- The file cannot be read, or is no document. -/
inductive DocumentFault (source : TextSource) (path : String) : LoadFault → Prop
  | unreadable {reason : String} (h : source path = .error reason) :
      DocumentFault source path (.unreadable reason)
  | malformed {text : String} (htext : source path = .ok text) (h : Data.read? text = none) :
      DocumentFault source path .malformed

/-- The document of a file that can be read and has one. -/
def document? (source : TextSource) (path : String) : Option Data :=
  (source path).toOption.bind Data.read?

/-- Of the entries the first that is none is told by its number. -/
inductive EntryFault : List Data → LoadFault → Prop
  | bad {before after : List Data} {data : Data} {message : String} (hbefore : EntriesRead before)
      (h : Entry.ofData data = .error message) :
      EntryFault (before ++ data :: after)
        (.rule ("task " ++ toString (before.length + 1) ++ ": " ++ message))

/-- What is wrong with a file that is included. -/
inductive IncludedFault (source : TextSource) (path : String) : LoadFault → Prop
  | document {fault : LoadFault} (h : DocumentFault source path fault) :
      IncludedFault source path fault
  | notList {data : Data} (hdata : document? source path = some data)
      (h : ∀ entries, listed path data ≠ .ok entries) :
      IncludedFault source path (.rule "an included file must be a list of tasks")
  | entry {entries : List Data} {fault : LoadFault} (hopened : opened? source path = some entries)
      (h : EntryFault entries fault) : IncludedFault source path fault

/-- The file lists the plays. -/
def ListsPlays (source : TextSource) (path : String) (plays : List Data) : Prop :=
  ∃ data, document? source path = some data ∧ listedPlays path data = .ok plays

/-- Loading comes to a play: the file lists it, and all plays before it can be had. -/
def ComesTo (source : TextSource) (here : Location) (outline : PlayOutline) : Prop :=
  ∃ before data after, ListsPlays source here.path (before ++ data :: after) ∧
    (∃ plays, playsFrom source here 1 before = .ok plays) ∧
    PlayOutline.ofData? data = some outline

/-- What is wrong with the file of a playbook. -/
inductive PlaybookFault (source : TextSource) (here : Location) : LoadFault → Prop
  | document {fault : LoadFault} (h : DocumentFault source here.path fault) :
      PlaybookFault source here fault
  | notList {data : Data} (hdata : document? source here.path = some data)
      (h : ∀ plays, listedPlays here.path data ≠ .ok plays) :
      PlaybookFault source here (.rule "a playbook must be a list of plays")
  | play {before after : List Data} {data : Data}
      (hlists : ListsPlays source here.path (before ++ data :: after))
      (hbefore : ∃ plays, playsFrom source here 1 before = .ok plays)
      (h : PlayOutline.ofData? data = none) :
      PlaybookFault source here (.badPlay (before.length + 1))
  | vars {outline : PlayOutline} {message : String} (hplay : ComesTo source here outline)
      (h : Entry.varsOf outline.vars = .error message) : PlaybookFault source here (.rule message)
  | entry {outline : PlayOutline} {entries : List Data} {fault : LoadFault}
      (hplay : ComesTo source here outline) (hentries : entries ∈ listsOf outline)
      (h : EntryFault entries fault) : PlaybookFault source here fault

/-- What is wrong with a file that the playbook consists of. -/
inductive AtFault (source : TextSource) (here : Location) : String → LoadFault → Prop
  | playbook {fault : LoadFault} (h : PlaybookFault source here fault) :
      AtFault source here here.path fault
  | included {outline : PlayOutline} {entries : List Data} {path : String} {fault : LoadFault}
      (hplay : ComesTo source here outline) (hentries : entries ∈ listsOf outline)
      (hpath : Reaches source here.base entries path) (h : IncludedFault source path fault) :
      AtFault source here path fault
  | tooDeep {outline : PlayOutline} {entries : List Data} {files : List String} {path : String}
      (hplay : ComesTo source here outline) (hentries : entries ∈ listsOf outline)
      (hchain : Chain source here.base entries (files ++ [path]))
      (hlong : files.length = inclusionLimit) :
      AtFault source here path
        (.rule ("includes nested deeper than " ++ toString inclusionLimit))
  | vars {outline : PlayOutline} {file : String} {fault : LoadFault}
      (hplay : ComesTo source here outline) (hfile : file ∈ outline.varsFiles)
      (h : VarsFile.AtFault source (Path.join here.base file) fault) :
      AtFault source here (Path.join here.base file) fault

variable {source : TextSource} {enter : String → Except Error (List Task)} {here : Location}
  {e : Error}

/-! ### Documents -/

theorem document?_eq_some {path text : String} {data : Data} (htext : source path = .ok text)
    (hdata : Data.read? text = some data) : document? source path = some data := by
  simp [document?, htext, hdata, Except.toOption]

theorem textAt_eq_error {path : String} (h : textAt source path = .error e) :
    ∃ fault, e = .playbook path fault ∧ DocumentFault source path fault := by
  unfold textAt at h
  split at h
  · cases h
  next reason hreason =>
    cases h
    exact ⟨_, rfl, .unreadable hreason⟩

theorem textAt_eq_ok {path text : String} (h : textAt source path = .ok text) :
    source path = .ok text := by
  unfold textAt at h
  split at h <;> cases h
  assumption

theorem document_eq_error {path text : String} (htext : source path = .ok text)
    (h : document path text = .error e) :
    ∃ fault, e = .playbook path fault ∧ DocumentFault source path fault := by
  unfold document at h
  split at h
  · cases h
  next hread =>
    cases h
    exact ⟨_, rfl, .malformed htext hread⟩

theorem document_eq_ok {path text : String} {data : Data} (h : document path text = .ok data) :
    Data.read? text = some data := by
  unfold document at h
  split at h <;> cases h
  assumption

/-! ### Lists of entries and inclusions -/

/-- A list fails for its first bad entry, or for a file that it includes. -/
theorem tasksFrom_eq_error {index : Nat} {entries : List Data}
    (h : tasksFrom enter here index entries = .error e) :
    (∃ before data after message, entries = before ++ data :: after ∧ EntriesRead before ∧
      Entry.ofData data = .error message ∧ e = .playbook here.path
        (.rule ("task " ++ toString (index + before.length) ++ ": " ++ message))) ∨
      ∃ path ∈ inclusions here.base entries, enter path = .error e := by
  induction entries generalizing index with
  | nil => cases h
  | cons data rest ih =>
    rw [tasksFrom] at h
    cases hentry : Entry.ofData data with
    | error message =>
      have hfirst : entryTasks enter here index data =
          .error (.playbook here.path (.rule ("task " ++ toString index ++ ": " ++ message))) := by
        rw [entryTasks, hentry]
      rw [hfirst] at h
      cases h
      left
      exact ⟨[], data, rest, message, rfl, List.forall_mem_nil _, hentry, rfl⟩
    | ok entry =>
      rcases bind_eq_error_iff.mp h with hfirst | ⟨first, -, h⟩
      · right
        cases entry with
        | task t =>
          rw [entryTasks, hentry] at hfirst
          cases hfirst
        | inclusion file vars =>
          rw [entryTasks, hentry] at hfirst
          refine ⟨Path.join here.base file, ?_, map_eq_error_iff.mp hfirst⟩
          simp [inclusions, fileOf?, hentry]
      rcases bind_eq_error_iff.mp h with hrest | ⟨others, -, h⟩
      · rcases ih hrest with ⟨before, bad, after, message, heq, hbefore, hbad, he⟩ |
          ⟨path, hpath, he⟩
        · left
          refine ⟨data :: before, bad, after, message, by rw [heq]; rfl, ?_, hbad, ?_⟩
          · exact List.forall_mem_cons.mpr ⟨⟨entry, hentry⟩, hbefore⟩
          · rw [he, List.length_cons, Nat.add_comm before.length 1, ← Nat.add_assoc]
        · right
          refine ⟨path, ?_, he⟩
          simp only [inclusions, List.mem_map, List.filterMap_cons] at hpath ⊢
          obtain ⟨file, hfile, rfl⟩ := hpath
          refine ⟨file, ?_, rfl⟩
          cases fileOf? data with
          | none => exact hfile
          | some first => exact List.mem_cons_of_mem first hfile
      · cases h

theorem entryFault_of_tasksFrom {entries : List Data}
    (h : tasksFrom enter here 1 entries = .error e) :
    (∃ fault, e = .playbook here.path fault ∧ EntryFault entries fault) ∨
      ∃ path ∈ inclusions here.base entries, enter path = .error e := by
  rcases tasksFrom_eq_error h with ⟨before, data, after, message, rfl, hbefore, hbad, he⟩ | hpath
  · left
    rw [Nat.add_comm] at he
    exact ⟨_, he, .bad hbefore hbad⟩
  · exact .inr hpath

/-- A file that can be entered fails for itself, or for a file that it includes. -/
theorem inclusion_succ_eq_error {n : Nat} {path : String}
    (h : inclusion source (n + 1) path = .error e) :
    (∃ fault, e = .playbook path fault ∧ IncludedFault source path fault) ∨
      ∃ next, Leads source path next ∧ inclusion source n next = .error e := by
  have h' := h
  rw [inclusion] at h'
  rcases bind_eq_error_iff.mp h' with htext | ⟨text, htext, h'⟩
  · obtain ⟨fault, he, hfault⟩ := textAt_eq_error htext
    exact .inl ⟨fault, he, .document hfault⟩
  have htext : source path = .ok text := textAt_eq_ok htext
  rcases bind_eq_error_iff.mp h' with hdata | ⟨data, hdata, h'⟩
  · obtain ⟨fault, he, hfault⟩ := document_eq_error htext hdata
    exact .inl ⟨fault, he, .document hfault⟩
  have hdata : Data.read? text = some data := document_eq_ok hdata
  rcases bind_eq_error_iff.mp h' with hlisted | ⟨entries, hlisted, -⟩
  · left
    have hnone : ∀ entries, listed path data ≠ .ok entries := by
      intro entries hentries
      rw [hlisted] at hentries
      cases hentries
    refine ⟨_, ?_, .notList (document?_eq_some htext hdata) hnone⟩
    unfold listed at hlisted
    split at hlisted <;> cases hlisted
    rfl
  · have hopened : opened? source path = some entries :=
      opened?_eq_some.mpr ⟨text, data, htext, hdata, hlisted⟩
    rw [inclusion_of_opened hopened] at h
    rcases entryFault_of_tasksFrom h with ⟨fault, he, hfault⟩ | ⟨next, hnext, he⟩
    · exact .inl ⟨fault, he, .entry hopened hfault⟩
    · exact .inr ⟨next, ⟨entries, hopened, hnext⟩, he⟩

/-- An included file fails for a file that it leads to, or at the end of a chain that is as
long as can be followed. -/
theorem inclusion_eq_error {n : Nat} {path : String} (h : inclusion source n path = .error e) :
    (∃ p fault, e = .playbook p fault ∧ ReflTransGen (Leads source) path p ∧
      IncludedFault source p fault) ∨
      ∃ files p, (files ++ [p]).head? = some path ∧ (files ++ [p]).IsChain (Leads source) ∧
        files.length = n ∧ e = .playbook p
          (.rule ("includes nested deeper than " ++ toString inclusionLimit)) := by
  induction n generalizing path with
  | zero =>
    cases h
    exact .inr ⟨[], path, rfl, .singleton _, rfl, rfl⟩
  | succ n ih =>
    rcases inclusion_succ_eq_error h with ⟨fault, he, hfault⟩ | ⟨next, hleads, hnext⟩
    · exact .inl ⟨path, fault, he, .refl, hfault⟩
    · rcases ih hnext with ⟨p, fault, he, hreach, hfault⟩ | ⟨files, p, hhead, hchain, hlen, he⟩
      · exact .inl ⟨p, fault, he, .head hleads hreach, hfault⟩
      · right
        refine ⟨path :: files, p, rfl, ?_, by rw [List.length_cons, hlen], he⟩
        rw [List.cons_append, List.isChain_cons]
        refine ⟨fun q hq => ?_, hchain⟩
        rw [hhead] at hq
        cases hq
        exact hleads

/-! ### Plays -/

variable {outline : PlayOutline}

theorem atFault_of_tasks (hplay : ComesTo source here outline) {entries : List Data}
    (hentries : entries ∈ listsOf outline) (h : tasks source here entries = .error e) :
    ∃ p fault, e = .playbook p fault ∧ AtFault source here p fault := by
  rcases entryFault_of_tasksFrom h with ⟨fault, he, hfault⟩ | ⟨first, hfirst, hfault⟩
  · exact ⟨_, fault, he, .playbook (.entry hplay hentries hfault)⟩
  · rcases inclusion_eq_error hfault with ⟨p, fault, he, hreach, hfault⟩ |
      ⟨files, p, hhead, hchain, hlen, he⟩
    · exact ⟨p, fault, he, .included hplay hentries ⟨first, hfirst, hreach⟩ hfault⟩
    · refine ⟨p, _, he, .tooDeep hplay hentries ⟨fun q hq => ?_, hchain⟩ hlen⟩
      rw [hhead] at hq
      cases hq
      exact hfirst

theorem modules_eq_error {es : Dict (List Data)} (h : modules source here es = .error e) :
    ∃ entries ∈ es.map Prod.snd, tasks source here entries = .error e := by
  induction es with
  | nil => cases h
  | cons module rest ih =>
    obtain ⟨name, entries⟩ := module
    rw [modules] at h
    rcases bind_eq_error_iff.mp h with h | ⟨ts, -, h⟩
    · exact ⟨entries, List.mem_cons_self, h⟩
    rcases bind_eq_error_iff.mp h with h | ⟨others, -, h⟩
    · obtain ⟨entries', hmem, h⟩ := ih h
      exact ⟨entries', List.mem_cons_of_mem _ hmem, h⟩
    · cases h

theorem varsWith_eq_error {vars : Vars} {files : List String}
    (h : varsWith source here vars files = .error e) :
    ∃ file ∈ files, VarsFile.load source (Path.join here.base file) = .error e := by
  induction files generalizing vars with
  | nil => cases h
  | cons file rest ih =>
    rw [varsWith] at h
    rcases bind_eq_error_iff.mp h with h | ⟨more, -, h⟩
    · exact ⟨file, List.mem_cons_self, h⟩
    · obtain ⟨file', hmem, h⟩ := ih h
      exact ⟨file', List.mem_cons_of_mem _ hmem, h⟩

/-- The error names a file that something is wrong with, or comes without a name from a file
of variables. -/
def Attributed (source : TextSource) (here : Location) (e : Error) : Prop :=
  (∃ p fault, e = .playbook p fault ∧ AtFault source here p fault) ∨
    ∃ outline, ComesTo source here outline ∧ ∃ file ∈ outline.varsFiles,
      VarsFile.Unnamed source (Path.join here.base file) e

theorem attributed_of_playVars (hplay : ComesTo source here outline)
    (h : playVars source here outline = .error e) : Attributed source here e := by
  unfold playVars at h
  cases hvars : Entry.varsOf outline.vars with
  | error message =>
    rw [hvars] at h
    cases h
    exact .inl ⟨_, _, rfl, .playbook (.vars hplay hvars)⟩
  | ok vars =>
    rw [hvars] at h
    obtain ⟨file, hfile, h⟩ := varsWith_eq_error h
    rcases VarsFile.load_eq_error h with ⟨fault, he, hfault⟩ | hunnamed
    · exact .inl ⟨_, fault, he, .vars hplay hfile hfault⟩
    · exact .inr ⟨outline, hplay, file, hfile, hunnamed⟩

theorem attributed_of_play (hplay : ComesTo source here outline)
    (h : play source here outline = .error e) : Attributed source here e := by
  rw [play_eq] at h
  rcases bind_eq_error_iff.mp h with h | ⟨vars, -, h⟩
  · exact attributed_of_playVars hplay h
  have hlist {entries : List Data} (hentries : entries ∈ listsOf outline)
      (h : tasks source here entries = .error e) : Attributed source here e :=
    .inl (atFault_of_tasks hplay hentries h)
  rcases bind_eq_error_iff.mp h with h | ⟨ordinary, -, h⟩
  · exact hlist (by simp [listsOf]) h
  rcases bind_eq_error_iff.mp h with h | ⟨handlers, -, h⟩
  · exact hlist (by simp [listsOf]) h
  rcases bind_eq_error_iff.mp h with h | ⟨modules, -, h⟩
  · obtain ⟨entries, hmem, h⟩ := modules_eq_error h
    exact hlist (List.mem_cons_of_mem _ (List.mem_cons_of_mem _ hmem)) h
  · cases h

/-- A play more is had after those that are. -/
theorem playsFrom_append_eq_ok {index : Nat} {datas : List Data} {data : Data} {plays : List Play}
    {p : Play} (hdatas : playsFrom source here index datas = .ok plays)
    (houtline : PlayOutline.ofData? data = some outline) (hp : play source here outline = .ok p) :
    playsFrom source here index (datas ++ [data]) = .ok (plays ++ [p]) := by
  induction datas generalizing index plays with
  | nil =>
    cases hdatas
    rw [List.nil_append, playsFrom_cons houtline, hp]
    rfl
  | cons first rest ih =>
    cases hfirst : PlayOutline.ofData? first with
    | none =>
      rw [playsFrom, hfirst] at hdatas
      cases hdatas
    | some outline' =>
      rw [playsFrom_cons hfirst] at hdatas
      obtain ⟨q, hq, hdatas⟩ := bind_eq_ok_iff.mp hdatas
      obtain ⟨others, hothers, hdatas⟩ := bind_eq_ok_iff.mp hdatas
      cases hdatas
      rw [List.cons_append, playsFrom_cons hfirst, hq]
      simp only [bind, Except.bind, ih hothers]
      rfl

theorem attributed_of_playsFrom {before datas : List Data} {plays : List Play}
    (hlists : ListsPlays source here.path (before ++ datas))
    (hbefore : playsFrom source here 1 before = .ok plays)
    (h : playsFrom source here (before.length + 1) datas = .error e) :
    Attributed source here e := by
  induction datas generalizing before plays with
  | nil => cases h
  | cons data rest ih =>
    cases houtline : PlayOutline.ofData? data with
    | none =>
      rw [playsFrom, houtline] at h
      cases h
      exact .inl ⟨_, _, rfl, .playbook (.play hlists ⟨plays, hbefore⟩ houtline)⟩
    | some outline =>
      have hplay : ComesTo source here outline :=
        ⟨before, data, rest, hlists, ⟨plays, hbefore⟩, houtline⟩
      rw [playsFrom_cons houtline] at h
      rcases bind_eq_error_iff.mp h with h | ⟨p, hp, h⟩
      · exact attributed_of_play hplay h
      rcases bind_eq_error_iff.mp h with h | ⟨others, -, h⟩
      · have hlists' : ListsPlays source here.path ((before ++ [data]) ++ rest) := by
          simpa using hlists
        refine ih hlists' (playsFrom_append_eq_ok hbefore houtline hp) ?_
        simpa using h
      · cases h

theorem attributed_of_ofText {text : String} (htext : source here.path = .ok text)
    (h : ofText source here text = .error e) : Attributed source here e := by
  unfold ofText at h
  rcases bind_eq_error_iff.mp h with h | ⟨data, hdata, h⟩
  · obtain ⟨fault, he, hfault⟩ := document_eq_error htext h
    exact .inl ⟨_, fault, he, .playbook (.document hfault)⟩
  have hdata := document?_eq_some htext (document_eq_ok hdata)
  rcases bind_eq_error_iff.mp h with hlisted | ⟨datas, hdatas, h⟩
  · left
    have hnone : ∀ plays, listedPlays here.path data ≠ .ok plays := by
      intro plays hplays
      rw [hlisted] at hplays
      cases hplays
    refine ⟨_, _, ?_, .playbook (.notList hdata hnone)⟩
    unfold listedPlays at hlisted
    split at hlisted <;> cases hlisted
    rfl
  rcases bind_eq_error_iff.mp h with h | ⟨plays, -, h⟩
  · have hlists : ListsPlays source here.path ([] ++ datas) := ⟨data, hdata, hdatas⟩
    exact attributed_of_playsFrom hlists rfl h
  · cases h

/-- Where a playbook does not load, the error names a file that the playbook consists of and
that something is wrong with: the file of the playbook itself, a file that is included, or a
file of variables. It names none only if a file of variables cannot be read or is no document
of its format. -/
theorem load_error_names_file (source : TextSource) (path : String) {e : Error}
    (h : load source path = .error e) :
    (∃ p fault, e = .playbook p fault ∧ AtFault source ⟨path, baseOf path⟩ p fault) ∨
      ∃ outline, ComesTo source ⟨path, baseOf path⟩ outline ∧ ∃ file ∈ outline.varsFiles,
        VarsFile.Unnamed source (Path.join (baseOf path) file) e := by
  rcases bind_eq_error_iff.mp h with h | ⟨text, htext, h⟩
  · obtain ⟨fault, he, hfault⟩ := textAt_eq_error h
    exact .inl ⟨path, fault, he, .playbook (.document hfault)⟩
  · exact attributed_of_ofText (textAt_eq_ok htext) h

/-- The file that the error of loading names, and the fault. -/
def blamed? (source : TextSource) (path : String) : Option (String × LoadFault) :=
  match load source path with
  | .error (.playbook p fault) => some (p, fault)
  | _ => none

/-- A playbook whose tasks come to a file with a bad entry through another file, and whose
variables are in a file. -/
def faulty : TextSource := .ofFiles [
  ("site", "- {vars_files: [v.yml], tasks: [{debug: a}, {include: t/c}]}"),
  ("./v.yml", "r: w"),
  ("./t/c", "[{include: m}]"),
  ("./t/m", "- {debug: x}\n- {name: b}")]

theorem load_error_names_file_faulty :
    load faulty "site" = .error (.playbook "./t/m" (.rule "task 2: task has no command")) ∧
      AtFault faulty ⟨"site", "."⟩ "./t/m" (.rule "task 2: task has no command") := by
  have hblamed : blamed? faulty "site" =
      some ("./t/m", .rule "task 2: task has no command") := by decide +kernel
  unfold blamed? at hblamed
  split at hblamed
  next p fault hload =>
    cases hblamed
    refine ⟨hload, ?_⟩
    rcases load_error_names_file faulty "site" hload with
      ⟨p, fault, he, hfault⟩ | ⟨outline, -, file, -, hunnamed⟩
    · cases he
      exact hfault
    · cases hunnamed
  next => cases hblamed

/-- A playbook whose only file of variables is not there. -/
def bare : TextSource := .ofFiles [("site", "- vars_files: [missing.yml]")]

theorem load_error_hides_file :
    ∃ e, load bare "site" = .error e ∧ ∀ p fault, e ≠ .playbook p fault := by
  have hrefused : (load bare "site").toOption.isNone = true := by decide +kernel
  have hblamed : blamed? bare "site" = none := by decide +kernel
  cases hload : load bare "site" with
  | ok book =>
    rw [hload] at hrefused
    cases hrefused
  | error e =>
    refine ⟨e, rfl, ?_⟩
    rintro p fault rfl
    rw [blamed?, hload] at hblamed
    cases hblamed

end Playbook

end PlaybookRunner
