import PlaybookRunner.Proofs.Inclusion

/-!
# Trees of inclusions

A list of entries stands for a tree: tasks are its leaves, and an inclusion holds the
trees of its file, whose paths start from the directory of that file. Loading gives the
leaves from left to right. On the way out of a file its tasks get the variables of the
inclusion, which those that they have already precede; so each task ends with the
variables of all inclusions around it, the innermost winning.
-/

namespace PlaybookRunner

namespace Playbook

open Yaml (Data)

/-- What an entry stands for: a task, or what the entries of a file stand for. -/
inductive IncludeTree
  | task (task : Task)
  | file (path : String) (vars : Vars) (trees : List IncludeTree)

/-- A task of a tree and the variables of the inclusions around it, outermost first. -/
structure Leaf where
  task : Task
  around : List Vars := []

namespace Leaf

/-- The leaf, seen from outside of an inclusion. -/
def through (vars : Vars) (leaf : Leaf) : Leaf := { leaf with around := vars :: leaf.around }

/-- What the innermost inclusion that binds a key binds it to. -/
def bound? (leaf : Leaf) (key : String) : Option Value :=
  leaf.around.reverse.findSome? fun vars => vars.get? key

/-- The task is that of the leaf, with the variables of the inclusions around it. -/
structure Yields (leaf : Leaf) (t : Task) : Prop where
  same : t = { leaf.task with includeVars := t.includeVars }
  distinct : t.includeVars.keys.Nodup
  bound : ∀ key, t.includeVars.get? key = leaf.bound? key

end Leaf

mutual

/-- The tasks of a tree from left to right. -/
def IncludeTree.leaves : IncludeTree → List Leaf
  | .task t => [{ task := t }]
  | .file _ vars trees => (leavesEach trees).map (Leaf.through vars)

/-- The tasks of some trees from left to right. -/
def IncludeTree.leavesEach : List IncludeTree → List Leaf
  | [] => []
  | tree :: rest => tree.leaves ++ leavesEach rest

end

/-- The trees that entries in a directory stand for. -/
inductive Unfolds (source : TextSource) : String → List Data → List IncludeTree → Prop
  | nil (base : String) : Unfolds source base [] []
  | task {base : String} {data : Data} {rest : List Data} {t : Task} {trees : List IncludeTree}
      (hentry : Entry.ofData data = .ok (.task t)) (hrest : Unfolds source base rest trees) :
      Unfolds source base (data :: rest) (.task t :: trees)
  | file {base file : String} {vars : Vars} {data : Data} {rest entries : List Data}
      {inner trees : List IncludeTree} (hentry : Entry.ofData data = .ok (.inclusion file vars))
      (hopened : opened? source (Path.join base file) = some entries)
      (hinner : Unfolds source (dirOf (Path.join base file)) entries inner)
      (hrest : Unfolds source base rest trees) :
      Unfolds source base (data :: rest) (.file (Path.join base file) vars inner :: trees)

/-- The tasks are the leaves of the trees that the entries stand for. -/
def Flattens (source : TextSource) (base : String) (entries : List Data) (ts : List Task) : Prop :=
  ∃ trees, Unfolds source base entries trees ∧
    (∀ others, Unfolds source base entries others → others = trees) ∧
    List.Forall₂ Leaf.Yields (IncludeTree.leavesEach trees) ts

/-- The play has the parts of the outline, each of its lists flattened. -/
structure FlatPlay (source : TextSource) (here : Location) (outline : PlayOutline) (p : Play) :
    Prop where
  name : p.name = outline.name
  vars : playVars source here outline = .ok p.vars
  tasks : Flattens source here.base outline.tasks p.tasks
  handlers : Flattens source here.base outline.handlers p.handlers
  modules : List.Forall₂ (fun e m => m.1 = e.1 ∧ m.2.name = e.1 ∧
    Flattens source here.base e.2 m.2.tasks) outline.modules p.modules

variable {source : TextSource} {enter : String → Except Error (List Task)} {here : Location}

theorem Unfolds.unique {base : String} {entries : List Data} {trees others : List IncludeTree}
    (h : Unfolds source base entries trees) (h' : Unfolds source base entries others) :
    others = trees := by
  induction h generalizing others with
  | nil base =>
    cases h'
    rfl
  | task hentry _ ih =>
    cases h' with
    | task hentry' hrest =>
      rw [hentry] at hentry'
      cases hentry'
      rw [ih hrest]
    | file hentry' =>
      rw [hentry] at hentry'
      cases hentry'
  | file hentry hopened _ _ ihinner ihrest =>
    cases h' with
    | task hentry' =>
      rw [hentry] at hentry'
      cases hentry'
    | file hentry' hopened' hinner hrest =>
      rw [hentry] at hentry'
      cases hentry'
      rw [hopened] at hopened'
      cases hopened'
      rw [ihinner hinner, ihrest hrest]

/-! ### Variables of inclusions -/

theorem Entry.nodup_varsOf {data : Option Data} {vars : Vars} (h : varsOf data = .ok vars) :
    vars.keys.Nodup := by
  unfold varsOf at h
  split at h <;> cases h
  · exact List.nodup_nil
  · exact List.nodup_nil
  · exact Dict.nodup_ofPairs _

/-- An entry is a task or an inclusion with the variables that its mapping holds. -/
theorem Entry.eq_of_ofData {data : Data} {entry : Entry} (h : ofData data = .ok entry) :
    ∃ pairs vars, varsOf (Data.field? pairs "vars") = .ok vars ∧
      ((∃ t, taskOf vars pairs = .ok t ∧ entry = .task t) ∨
        ∃ file, entry = .inclusion file vars) := by
  unfold ofData at h
  split at h
  next pairs =>
    unfold ofPairs at h
    obtain ⟨vars, hvars, h⟩ := bind_eq_ok_iff.mp h
    refine ⟨pairs, vars, hvars, ?_⟩
    split at h
    · obtain ⟨file, -, h⟩ := bind_eq_ok_iff.mp h
      cases file with
      | none => cases h
      | some file =>
        cases h
        exact .inr ⟨file, rfl⟩
    · obtain ⟨t, ht, h⟩ := bind_eq_ok_iff.mp h
      cases h
      exact .inl ⟨t, ht, rfl⟩
  next => cases h

theorem Entry.nodup_of_inclusion {data : Data} {file : String} {vars : Vars}
    (h : ofData data = .ok (.inclusion file vars)) : vars.keys.Nodup := by
  obtain ⟨pairs, vars', hvars, ⟨t, -, heq⟩ | ⟨file', heq⟩⟩ := eq_of_ofData h
  · cases heq
  · cases heq
    exact nodup_varsOf hvars

theorem Entry.includeVars_addBody {t t' : Task} {body : Data} (h : addBody t body = .ok t') :
    t'.includeVars = t.includeVars := by
  unfold addBody at h
  split at h <;> cases h <;> rfl

theorem Entry.includeVars_of_task {data : Data} {t : Task} (h : ofData data = .ok (.task t)) :
    t.includeVars = [] := by
  obtain ⟨pairs, vars, -, ⟨t', ht, heq⟩ | ⟨file, heq⟩⟩ := eq_of_ofData h
  · cases heq
    unfold taskOf at ht
    simp only [bind_eq_ok_iff] at ht
    obtain ⟨_, _, _, _, t', hbody, _, _, _, _, _, _, _, _, _, _, ht⟩ := ht
    cases ht
    exact includeVars_addBody hbody
  · cases heq

namespace Leaf.Yields

variable {leaf : Leaf} {t : Task}

theorem own (h : t.includeVars = []) : ({ task := t } : Leaf).Yields t where
  same := rfl
  distinct := by simp [h, Dict.keys]
  bound key := by rw [h]; rfl

/-- An inclusion binds what those inside it leave open. -/
theorem through (h : leaf.Yields t) {vars : Vars} (hvars : vars.keys.Nodup) :
    (leaf.through vars).Yields (included vars t) where
  same := by rw [included, h.same]; rfl
  distinct := Dict.nodup_extend hvars _
  bound key := by
    have hinner : (vars.extend t.includeVars).get? key =
        (t.includeVars.get? key).or (vars.get? key) := Dict.get?_extend h.distinct vars key
    rw [included, hinner, h.bound]
    simp [bound?, Leaf.through, List.findSome?_append]

end Leaf.Yields

/-! ### Flattening -/

/-- What is known of the files that are entered is known of a list that includes them. -/
theorem exists_unfolds_of_tasksFrom
    (henter : ∀ path inner, enter path = .ok inner → ∃ entries trees,
      opened? source path = some entries ∧ Unfolds source (dirOf path) entries trees ∧
        List.Forall₂ Leaf.Yields (IncludeTree.leavesEach trees) inner)
    {index : Nat} {entries : List Data} {ts : List Task}
    (h : tasksFrom enter here index entries = .ok ts) :
    ∃ trees, Unfolds source here.base entries trees ∧
      List.Forall₂ Leaf.Yields (IncludeTree.leavesEach trees) ts := by
  induction entries generalizing index ts with
  | nil =>
    cases h
    exact ⟨[], .nil _, .nil⟩
  | cons data rest ih =>
    obtain ⟨first, others, hfirst, hothers, rfl⟩ := tasksFrom_cons_eq_ok.mp h
    obtain ⟨trees, hunfolds, hleaves⟩ := ih hothers
    rcases entryTasks_eq_ok.mp hfirst with
      ⟨t, hentry, rfl⟩ | ⟨file, vars, inner, hentry, hinner, rfl⟩
    · have ht : ({ task := t } : Leaf).Yields t := .own (Entry.includeVars_of_task hentry)
      exact ⟨.task t :: trees, .task hentry hunfolds, .cons ht hleaves⟩
    · obtain ⟨entries, trees', hopened, hunfolds', hleaves'⟩ := henter _ _ hinner
      have hvars : vars.keys.Nodup := Entry.nodup_of_inclusion hentry
      refine ⟨.file _ vars trees' :: trees, .file hentry hopened hunfolds' hunfolds, ?_⟩
      refine List.rel_append ?_ hleaves
      rw [IncludeTree.leaves, List.forall₂_map_left_iff, List.forall₂_map_right_iff]
      exact hleaves'.imp fun _ _ hyields => hyields.through hvars

/-- The tasks of a file are the leaves of its trees. -/
theorem exists_unfolds_of_inclusion {n : Nat} {path : String} {ts : List Task}
    (h : inclusion source n path = .ok ts) : ∃ entries trees, opened? source path = some entries ∧
      Unfolds source (dirOf path) entries trees ∧
        List.Forall₂ Leaf.Yields (IncludeTree.leavesEach trees) ts := by
  induction n generalizing path ts with
  | zero => cases h
  | succ n ih =>
    obtain ⟨entries, hopened⟩ := exists_opened_of_inclusion h
    rw [inclusion_of_opened hopened] at h
    obtain ⟨trees, hunfolds, hleaves⟩ := exists_unfolds_of_tasksFrom (fun _ _ => ih) h
    exact ⟨entries, trees, hopened, hunfolds, hleaves⟩

theorem flattens_of_tasks {entries : List Data} {ts : List Task}
    (h : tasks source here entries = .ok ts) : Flattens source here.base entries ts := by
  obtain ⟨trees, hunfolds, hleaves⟩ :=
    exists_unfolds_of_tasksFrom (fun _ _ => exists_unfolds_of_inclusion) h
  exact ⟨trees, hunfolds, fun _ hothers => hunfolds.unique hothers, hleaves⟩

theorem Builds.flat {outline : PlayOutline} {p : Play} (h : Builds source here outline p) :
    FlatPlay source here outline p where
  name := h.name
  vars := h.vars
  tasks := flattens_of_tasks h.tasks
  handlers := flattens_of_tasks h.handlers
  modules := h.modules.imp fun _ _ hm => ⟨hm.1, hm.2.1, flattens_of_tasks hm.2.2⟩

/-- Where no chain of inclusions is too long and all that is reached reads, loading flattens
the trees of inclusions: each list of a play becomes the leaves of its trees in order, and
each task gets the variables of the inclusions around it, the innermost winning. Loading can
then only fail because the variables of a play cannot be had. -/
theorem load_flattens_inclusions (source : TextSource) (origin : Origin)
    {outlines : List PlayOutline} (houtlines : origin.outlines? source = some outlines)
    (hchains : ∀ o ∈ outlines, ∀ entries ∈ listsOf o, ∀ files,
      Chain source origin.location.base entries files → files.length ≤ inclusionLimit)
    (hreads : ∀ o ∈ outlines, ∀ entries ∈ listsOf o,
      ReadsThrough source origin.location.base entries) :
    (∃ book, origin.load source = .ok book ∧ book.baseDir = origin.location.base ∧
      List.Forall₂ (FlatPlay source origin.location) outlines book.plays) ∨
    ∃ o ∈ outlines, ∃ e, playVars source origin.location o = .error e ∧
      origin.load source = .error e := by
  have hlists : ∀ o ∈ outlines, ∀ entries ∈ listsOf o,
      ∃ ts, tasks source origin.location entries = .ok ts := fun o ho entries hentries =>
    exists_tasks_iff.mpr ⟨hchains o ho entries hentries, hreads o ho entries hentries⟩
  rcases Origin.load_ok_or_vars houtlines hlists with ⟨book, hbook⟩ | hvars
  · left
    obtain ⟨hbase, hplays⟩ := (Origin.load_eq_ok_iff houtlines).mp hbook
    exact ⟨book, hbook, hbase, hplays.imp fun _ _ hp => hp.flat⟩
  · exact .inr hvars

/-- A file that is included through another, which binds a variable anew, and without it. -/
def site : TextSource := .ofFiles [
  ("site", "- tasks: [{debug: a}, {include: t/c, vars: {r: w, s: 1}}]\n  handlers: [{include: t/m}]"),
  ("./t/c", "- {name: b, debug: x}\n- {include: m, vars: {s: 2}}"),
  ("./t/m", "- {name: c, debug: x}")]

theorem load_flattens_inclusions_site :
    ∃ outlines book, (Origin.file "site").outlines? site = some outlines ∧
      (∀ o ∈ outlines, ∀ entries ∈ listsOf o, ∀ files,
        Chain site "." entries files → files.length ≤ inclusionLimit) ∧
      (∀ o ∈ outlines, ∀ entries ∈ listsOf o, ReadsThrough site "." entries) ∧
      (Origin.file "site").load site = .ok book ∧
      List.Forall₂ (FlatPlay site (Origin.file "site").location) outlines book.plays ∧
      (book.plays.map fun p => p.tasks.map fun t =>
        (t.name, t.includeVars.mapValues Value.display)) =
        [[("debug", []), ("b", [("r", "w"), ("s", "1")]), ("c", [("r", "w"), ("s", "2")])]] := by
  have houtlines : ((Origin.file "site").outlines? site).isSome = true := by decide +kernel
  have hload : (((Origin.file "site").load site).toOption.map fun book =>
      book.plays.map fun p => p.tasks.map fun t =>
        (t.name, t.includeVars.mapValues Value.display)) =
      some [[("debug", []), ("b", [("r", "w"), ("s", "1")]),
        ("c", [("r", "w"), ("s", "2")])]] := by decide +kernel
  obtain ⟨outlines, houtlines⟩ := Option.isSome_iff_exists.mp houtlines
  obtain ⟨book, hbook, hshown⟩ := Option.map_eq_some_iff.mp hload
  have hbook : (Origin.file "site").load site = .ok book := toOption_eq_some_iff.mp hbook
  have hlists := Origin.exists_tasks_of_load houtlines hbook
  have hchains : ∀ o ∈ outlines, ∀ entries ∈ listsOf o, ∀ files,
      Chain site "." entries files → files.length ≤ inclusionLimit :=
    fun o ho entries hentries => (exists_tasks_iff.mp (hlists o ho entries hentries)).1
  have hreads : ∀ o ∈ outlines, ∀ entries ∈ listsOf o, ReadsThrough site "." entries :=
    fun o ho entries hentries => (exists_tasks_iff.mp (hlists o ho entries hentries)).2
  refine ⟨outlines, book, houtlines, hchains, hreads, hbook, ?_, hshown⟩
  rcases load_flattens_inclusions site (.file "site") houtlines hchains hreads with
    ⟨book', hbook', -, hplays⟩ | ⟨o, ho, e, -, he⟩
  · rw [hbook] at hbook'
    cases hbook'
    exact hplays
  · rw [hbook] at he
    cases he

end Playbook

end PlaybookRunner
