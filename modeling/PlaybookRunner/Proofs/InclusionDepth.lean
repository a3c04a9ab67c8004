import Mathlib.Logic.Function.Iterate
import PlaybookRunner.Proofs.Inclusion

/-!
# The depth of inclusions

Files may include each other in a circle, so that no order of them bounds the descent
into files. The depth does: a file is opened only down to the limit, and whatever would
be answered below it never matters. A playbook that comes to a circle has chains of
every length, and is refused.
-/

namespace PlaybookRunner.Playbook

open Relation
open Yaml (Data)

variable {source : TextSource} {same : String → String → Prop} {p q : String}

/-- A file that is opened at a depth: the files that it includes are entered at the next. -/
def inclusionBy (source : TextSource) (enter : Nat → String → Except Error (List Task))
    (depth : Nat) (path : String) : Except Error (List Task) :=
  if inclusionLimit < depth then
    .error (.playbook path
      (.rule ("includes nested deeper than " ++ toString inclusionLimit)))
  else do
    let text ← textAt source path
    let entries ← listed path (← document path text)
    tasksFrom (enter (depth + 1)) { path, base := dirOf path } 1 entries

/-- Related paths hold the same text, and so do the paths that either may include. -/
structure Identifies (source : TextSource) (same : String → String → Prop) : Prop where
  text : ∀ p q, same p q → source p = source q
  within : ∀ p q, same p q → ∀ file, same (Path.join (dirOf p) file) (Path.join (dirOf q) file)

theorem identifies_eq (source : TextSource) : Identifies source Eq where
  text := by
    rintro p _ rfl
    rfl
  within := by
    rintro p _ rfl file
    rfl

/-- So many levels as there are depths left need no answer from below. -/
theorem iterate_inclusionBy (source : TextSource) (leaf : Nat → String → Except Error (List Task))
    {n depth : Nat} (h : inclusionLimit < n + depth) (path : String) :
    (inclusionBy source)^[n + 1] leaf depth path =
      inclusion source (inclusionLimit + 1 - depth) path := by
  induction n generalizing depth path with
  | zero =>
    have hdeep : inclusionLimit < depth := by omega
    have hnone : inclusionLimit + 1 - depth = 0 := by omega
    rw [Function.iterate_succ_apply', inclusionBy, if_pos hdeep, hnone, inclusion]
  | succ n ih =>
    rw [Function.iterate_succ_apply']
    -- Within the limit a step down spends one level; beyond it nothing is entered.
    by_cases hdeep : inclusionLimit < depth
    · have hnone : inclusionLimit + 1 - depth = 0 := by omega
      rw [inclusionBy, if_pos hdeep, hnone, inclusion]
    · have hmore : inclusionLimit + 1 - depth = inclusionLimit + 1 - (depth + 1) + 1 := by omega
      have henter : (inclusionBy source)^[n + 1] leaf (depth + 1) =
          inclusion source (inclusionLimit + 1 - (depth + 1)) :=
        funext fun path => ih (by omega) path
      rw [inclusionBy, if_neg hdeep, henter, hmore, inclusion]
      rfl

/-! ### Circles -/

theorem Identifies.opened?_eq (h : Identifies source same) (hsame : same p q) :
    opened? source p = opened? source q := by
  have hlisted (data : Data) : (listed p data).toOption = (listed q data).toOption := by
    unfold listed
    split <;> rfl
  simp only [opened?, h.text p q hsame, hlisted]

/-- What a path leads to, a path to the same file leads to as well. -/
theorem Identifies.exists_leads (h : Identifies source same) (hsame : same p q) {next : String}
    (hnext : Leads source p next) : ∃ next', Leads source q next' ∧ same next next' := by
  obtain ⟨entries, hopened, hmem⟩ := hnext
  obtain ⟨file, hfile, rfl⟩ := List.mem_map.mp hmem
  rw [h.opened?_eq hsame] at hopened
  exact ⟨_, ⟨entries, hopened, List.mem_map_of_mem hfile⟩, h.within p q hsame file⟩

theorem Identifies.exists_transGen (h : Identifies source same) (hsame : same p q) {last : String}
    (hlast : TransGen (Leads source) p last) :
    ∃ last', TransGen (Leads source) q last' ∧ same last last' := by
  induction hlast with
  | single hnext =>
    obtain ⟨next', hnext', hsame'⟩ := h.exists_leads hsame hnext
    exact ⟨next', .single hnext', hsame'⟩
  | tail _ hnext ih =>
    obtain ⟨mid, hmid, hsame'⟩ := ih
    obtain ⟨next', hnext', hsame''⟩ := h.exists_leads hsame' hnext
    exact ⟨next', hmid.tail hnext', hsame''⟩

/-- There is a chain from the file with so many files after it. -/
def Descends (source : TextSource) (n : Nat) (path : String) : Prop :=
  ∃ files, (path :: files).IsChain (Leads source) ∧ n ≤ files.length

theorem Descends.of_leads {n : Nat} (h : Descends source n q) (hleads : Leads source p q) :
    Descends source (n + 1) p := by
  obtain ⟨files, hchain, hlength⟩ := h
  exact ⟨q :: files, .cons_cons hleads hchain, Nat.succ_le_succ hlength⟩

theorem Descends.of_reaches {n : Nat} (h : Descends source n q)
    (hreaches : ReflTransGen (Leads source) p q) : Descends source n p := by
  induction hreaches using ReflTransGen.head_induction_on with
  | refl => exact h
  | head hleads _ ih =>
    obtain ⟨files, hchain, hlength⟩ := ih.of_leads hleads
    exact ⟨files, hchain, Nat.le_of_succ_le hlength⟩

/-- From a file that comes to itself again one descends as far as one likes. -/
theorem Identifies.descends (h : Identifies source same) (n : Nat) (hsame : same p q)
    (hcircle : TransGen (Leads source) p q) : Descends source n p := by
  induction n generalizing p q with
  | zero => exact ⟨[], .singleton _, Nat.le_refl _⟩
  | succ n ih =>
    -- `q` is the file of `p` again, so what was a way from `p` to it is one from `q` as well.
    obtain ⟨last, hlast, hsame'⟩ := h.exists_transGen hsame hcircle
    obtain ⟨next, hleads, hreaches⟩ := TransGen.head'_iff.mp hcircle
    exact ((ih hsame' hlast).of_reaches hreaches).of_leads hleads

/-- A list that comes to a circle cannot be put together. -/
theorem not_exists_tasks_of_circle (h : Identifies source same) {here : Location}
    {entries : List Data} (hreaches : Reaches source here.base entries p) (hsame : same p q)
    (hcircle : TransGen (Leads source) p q) :
    ¬ ∃ ts, tasks source here entries = .ok ts := by
  intro hts
  obtain ⟨first, hfirst, hpath⟩ := hreaches
  obtain ⟨files, hchain, hlength⟩ := (h.descends inclusionLimit hsame hcircle).of_reaches hpath
  have hfiles : Chain source here.base entries (first :: files) :=
    ⟨fun path hhead => Option.some.inj hhead ▸ hfirst, hchain⟩
  have hshort : files.length + 1 ≤ inclusionLimit := (exists_tasks_iff.mp hts).1 _ hfiles
  omega

/-- Loading ends on every source, and the depth of inclusions is what ends it: the tasks of
a list come from so many levels as the limit and one more, whatever would be answered below
them. The tasks of a list can be had if and only if no chain of inclusions from it is longer than the
limit and all that it reaches reads. So a playbook loads only if no chain from a list of its
plays is longer; if that holds and all reads, it fails only for the variables of a play; and
if a list comes to a circle, it is refused. -/
theorem loading_bounds_inclusions (source : TextSource) (origin : Origin)
    {outlines : List PlayOutline} (houtlines : origin.outlines? source = some outlines) :
    (∀ (leaf : Nat → String → Except Error (List Task)) (n : Nat), inclusionLimit < n →
      ∀ here entries, tasksFrom ((inclusionBy source)^[n] leaf 1) here 1 entries =
        tasks source here entries) ∧
    (∀ o ∈ outlines, ∀ entries ∈ listsOf o,
      ((∃ ts, tasks source origin.location entries = .ok ts) ↔
        (∀ files, Chain source origin.location.base entries files →
          files.length ≤ inclusionLimit) ∧
        ReadsThrough source origin.location.base entries)) ∧
    (∀ book, origin.load source = .ok book → ∀ o ∈ outlines, ∀ entries ∈ listsOf o, ∀ files,
      Chain source origin.location.base entries files → files.length ≤ inclusionLimit) ∧
    ((∀ o ∈ outlines, ∀ entries ∈ listsOf o,
        (∀ files, Chain source origin.location.base entries files →
          files.length ≤ inclusionLimit) ∧
        ReadsThrough source origin.location.base entries) →
      (∃ book, origin.load source = .ok book) ∨
        ∃ o ∈ outlines, ∃ e, playVars source origin.location o = .error e ∧
          origin.load source = .error e) ∧
    ∀ same, Identifies source same → ∀ o ∈ outlines, ∀ entries ∈ listsOf o, ∀ p q,
      Reaches source origin.location.base entries p → TransGen (Leads source) p q → same p q →
        ∃ e, origin.load source = .error e := by
  refine ⟨fun leaf n hn here entries => ?_, fun _ _ _ _ => exists_tasks_iff, fun book hbook o ho
    entries hentries => ?_, fun hall => ?_, fun same hidentifies o ho entries hentries p q hreaches
    hcircle hsame => ?_⟩
  · obtain ⟨n, rfl⟩ : ∃ k, n = k + 1 := ⟨n - 1, by omega⟩
    have henter : (inclusionBy source)^[n + 1] leaf 1 = inclusion source inclusionLimit :=
      funext fun path => iterate_inclusionBy source leaf hn path
    rw [henter, tasks]
  · have hts := Origin.exists_tasks_of_load houtlines hbook o ho entries hentries
    exact (exists_tasks_iff.mp hts).1
  · exact Origin.load_ok_or_vars houtlines fun o ho entries hentries =>
      exists_tasks_iff.mpr (hall o ho entries hentries)
  · cases hload : origin.load source with
    | error e => exact ⟨e, rfl⟩
    | ok book =>
      have hts := Origin.exists_tasks_of_load houtlines hload o ho entries hentries
      exact absurd hts (not_exists_tasks_of_circle hidentifies hreaches hsame hcircle)

/-- A file that includes itself, and one that includes nothing. -/
def circle : TextSource := .ofFiles [("./f", "[{include: f}]"), ("./g", "[{debug: a}]")]

theorem loading_bounds_inclusions_circle :
    let straight : Origin := .text none "[{tasks: [{include: g}]}]"
    let round : Origin := .text none "[{tasks: [{include: f}]}]"
    (∃ outlines, straight.outlines? circle = some outlines ∧
      (∃ book, straight.load circle = .ok book) ∧
      ∀ o ∈ outlines, ∀ entries ∈ listsOf o,
        (∀ files, Chain circle "." entries files → files.length ≤ inclusionLimit) ∧
        ReadsThrough circle "." entries) ∧
    ∃ outlines, round.outlines? circle = some outlines ∧
      (∃ o ∈ outlines, ∃ entries ∈ listsOf o, Reaches circle "." entries "./f" ∧
        tasksFrom ((inclusionBy circle)^[33] (fun _ _ => .ok []) 1) round.location 1 entries =
          tasks circle round.location entries) ∧
      TransGen (Leads circle) "./f" "./f" ∧ ∃ e, round.load circle = .error e := by
  intro straight round
  refine ⟨?_, ?_⟩
  · have hload : (straight.load circle).toOption.isSome = true := by decide +kernel
    have houtlines : (straight.outlines? circle).isSome = true := by decide +kernel
    obtain ⟨outlines, houtlines⟩ := Option.isSome_iff_exists.mp houtlines
    obtain ⟨book, hbook⟩ := Option.isSome_iff_exists.mp hload
    have hbook : straight.load circle = .ok book := toOption_eq_some_iff.mp hbook
    obtain ⟨-, hiff, hbounded, haccepted, -⟩ := loading_bounds_inclusions circle straight houtlines
    have hlists := Origin.exists_tasks_of_load houtlines hbook
    have hall : ∀ o ∈ outlines, ∀ entries ∈ listsOf o,
        (∀ files, Chain circle "." entries files → files.length ≤ inclusionLimit) ∧
        ReadsThrough circle "." entries := fun o ho entries hentries =>
      ⟨hbounded book hbook o ho entries hentries,
        ((hiff o ho entries hentries).mp (hlists o ho entries hentries)).2⟩
    rcases haccepted hall with haccepted | ⟨_, _, e, _, he⟩
    · exact ⟨outlines, houtlines, haccepted, hall⟩
    · rw [hbook] at he
      cases he
  · have hshape : (round.outlines? circle).map (fun outlines => outlines.map fun o =>
        (listsOf o).map (inclusions ".")) = some [[["./f"], []]] := by decide +kernel
    have hself : (opened? circle "./f").map (inclusions (dirOf "./f")) = some ["./f"] := by
      decide +kernel
    obtain ⟨outlines, houtlines, hshape⟩ := Option.map_eq_some_iff.mp hshape
    obtain ⟨own, hopened, hown⟩ := Option.map_eq_some_iff.mp hself
    obtain ⟨o, ho, hlists⟩ : ∃ o ∈ outlines, (listsOf o).map (inclusions ".") = [["./f"], []] :=
      List.mem_map.mp (hshape ▸ List.mem_singleton_self _)
    obtain ⟨entries, hentries, hincludes⟩ : ∃ es ∈ listsOf o, inclusions "." es = ["./f"] :=
      List.mem_map.mp (hlists ▸ List.mem_cons_self)
    have hcircle : TransGen (Leads circle) "./f" "./f" := .single ⟨own, hopened, by simp [hown]⟩
    have hreaches : Reaches circle "." entries "./f" := ⟨"./f", by simp [hincludes], .refl⟩
    obtain ⟨hends, -, -, -, hrefused⟩ := loading_bounds_inclusions circle round houtlines
    exact ⟨outlines, houtlines,
      ⟨o, ho, entries, hentries, hreaches, hends _ 33 (by decide) round.location entries⟩, hcircle,
      hrefused Eq (identifies_eq circle) o ho entries hentries _ _ hreaches hcircle rfl⟩

end PlaybookRunner.Playbook
