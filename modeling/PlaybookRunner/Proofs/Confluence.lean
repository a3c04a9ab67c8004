import Mathlib.Data.Fintype.EquivFin
import Mathlib.Logic.Relation
import PlaybookRunner.Proofs.Session

/-!
# The order in which futures are forced

Where jobs only answer, fail or read, and no future comes to read itself, each
future has one outcome: the one it would have if it were forced first. A world
that is partly settled holds such outcomes beside pending futures and the chain
of futures that are running; forcing a future that reads none of the chain leads
to a world of the same kind. Hence any two orders of requests end alike.
-/

namespace PlaybookRunner

variable {σ : Type}

namespace Job

/-- The job only answers, fails, or reads names. -/
def Plain : Job → Prop
  | register .. => False
  | command .. => False
  | _ => True

/-- The names that a job may read, each in its scope. -/
def mentions : Job → List (Scope × String)
  | read scope key => [(scope, key)]
  | evaluate scope text => (Expr.compiledNames (Expr.compile text)).map fun key => (scope, key)
  | _ => []

end Job

theorem Error.futureFailed_injective (name : String) {o o' : Except String TaskResult}
    (h : o.mapError (Error.futureFailed name) = o'.mapError (Error.futureFailed name)) :
    o = o' := by
  cases o <;> cases o' <;> cases h <;> rfl

namespace World

/-- The future that a name stands for in a scope. -/
def bound? (w : World σ) : Scope → String → Option Nat
  | [], _ => none
  | .fixed vars :: rest, key => if (Dict.get? vars key).isSome then none else bound? w rest key
  | .table index :: rest, key =>
    match (w.table index).futures.get? key with
    | some future => some future
    | none => if ((w.table index).vars.get? key).isSome then none else bound? w rest key

/-- The job of the first future, which is pending, mentions a name of the second. -/
def Mentions (w : World σ) (i j : Nat) : Prop :=
  ∃ f job, w.futures[i]? = some f ∧ f.progress = .pending job ∧
    ∃ p ∈ job.mentions, w.bound? p.1 p.2 = some j

theorem Mentions.lt_size {w : World σ} {i j : Nat} (h : w.Mentions i j) : i < w.futures.size := by
  obtain ⟨f, _, hf, -⟩ := h
  exact (Array.getElem?_eq_some_iff.mp hf).1

theorem wellFounded_mentions {w : World σ} (h : ∀ i, ¬ Relation.TransGen w.Mentions i i) :
    WellFounded fun j i => w.Mentions i j := by
  let below (a b : Fin w.futures.size) : Prop := Relation.TransGen w.Mentions b a
  have htrans : IsTrans _ below := ⟨fun _ _ _ hab hbc => hbc.trans hab⟩
  have hirrefl : Std.Irrefl below := ⟨fun a => h a⟩
  have hwf : WellFounded below := Finite.wellFounded_of_trans_of_irrefl below
  have hacc (a : Fin w.futures.size) : Acc (fun j i => w.Mentions i j) a := by
    induction a using hwf.induction with
    | _ a ih =>
      refine ⟨_, fun j hj => ?_⟩
      by_cases hlt : j < w.futures.size
      · exact ih ⟨j, hlt⟩ (.single hj)
      · exact ⟨_, fun k hk => absurd hk.lt_size hlt⟩
  refine ⟨fun i => ⟨_, fun j hj => ?_⟩⟩
  exact (hacc ⟨i, hj.lt_size⟩).inv hj

/-- What a future answers when it is forced first. -/
def outcome (host : Host σ) (w : World σ) (i : Nat) : Except Error TaskResult :=
  ((Future.force host i).run w).1

/-- How far a future has come that was as given: it is running in the chain, or
it is as it was, or it has settled with its outcome. -/
def SettledAs (host : Host σ) (w : World σ) (chain : Nat → Prop) (i : Nat) (f g : Future) : Prop :=
  g.name = f.name ∧
    ((chain i ∧ (∃ job, f.progress = .pending job) ∧ g.progress = .running) ∨
      (¬ chain i ∧ g.progress = f.progress) ∨
      (¬ chain i ∧ (∃ job, f.progress = .pending job) ∧
        ∃ o, g.progress = .ofOutcome o ∧ o.mapError (.futureFailed f.name) = w.outcome host i))

/-- A world that is settled in part: the tables are those of the first world,
and each future has come as far as it may. -/
structure Partly (host : Host σ) (w : World σ) (chain : Nat → Prop) (v : World σ) : Prop where
  tables : v.tables = w.tables
  absent : ∀ i : Nat, w.futures[i]? = none → v.futures[i]? = none
  present : ∀ (i : Nat) (f : Future), w.futures[i]? = some f →
    ∃ g, v.futures[i]? = some g ∧ w.SettledAs host chain i f g

variable {host : Host σ} {w v : World σ} {chain chain' : Nat → Prop}

namespace Partly

theorem refl (host : Host σ) (w : World σ) : w.Partly host (fun _ => False) w where
  tables := rfl
  absent _ h := h
  present _ f h := ⟨f, h, rfl, .inr (.inl ⟨not_false, rfl⟩)⟩

theorem table (h : w.Partly host chain v) (index : Nat) : v.table index = w.table index := by
  unfold World.table
  rw [h.tables]

/-- A future outside the chain is either pending as it was, or answers its outcome. -/
theorem answers_or_pending (h : w.Partly host chain v) {i : Nat} (hi : ¬ chain i) :
    v.answer? i = some (w.outcome host i) ∨
      ∃ f job, w.futures[i]? = some f ∧ v.futures[i]? = some f ∧ f.progress = .pending job := by
  cases hf : w.futures[i]? with
  | none =>
    left
    have hw : w.answer? i = some (.error (.futureFailed "" "no such future")) := by
      simp only [answer?, hf]
    rw [outcome, Future.run_force_of_answer? hw]
    simp only [answer?, h.absent i hf]
  | some f =>
    obtain ⟨g, hg, hname, hprogress⟩ := h.present i f hf
    rcases hprogress with ⟨hc, -⟩ | ⟨-, hsame⟩ | ⟨-, -, o, hdone, ho⟩
    · exact absurd hc hi
    · have hfg : g = f := by
        cases f
        cases g
        simp_all
      subst hfg
      cases hp : g.progress with
      | pending job => exact .inr ⟨g, job, rfl, hg, hp⟩
      | running | ready result | failed message =>
        left
        obtain ⟨a, ha⟩ : ∃ a, w.answer? i = some a := by simp [answer?, hf, Future.answer?, hp]
        rw [outcome, Future.run_force_of_answer? ha, ← ha]
        simp only [answer?, hf, hg]
    · left
      rw [← ho]
      simp only [answer?, hg, Future.answer?, hdone]
      cases o <;> simp [Progress.ofOutcome, Except.mapError, hname]

/-- A pending future joins the chain when it starts. -/
theorem start (h : w.Partly host chain v) {i : Nat} {f : Future} {job : Job}
    (hf : w.futures[i]? = some f) (hp : f.progress = .pending job) :
    w.Partly host (fun k => chain k ∨ k = i) (v.start i) where
  tables := h.tables
  absent k hk := by
    rw [getElem?_start, h.absent k hk]
    split <;> rfl
  present k g hk := by
    obtain ⟨r, hr, hname, hprogress⟩ := h.present k g hk
    by_cases hki : i = k
    · subst hki
      rw [hf] at hk
      cases hk
      refine ⟨{ r with progress := .running }, ?_, hname, .inl ⟨.inr rfl, ⟨job, hp⟩, rfl⟩⟩
      rw [getElem?_start, if_pos rfl, hr]
      rfl
    · have hne : k ≠ i := fun e => hki e.symm
      refine ⟨r, by rw [getElem?_start, if_neg hki, hr], hname, ?_⟩
      simpa [hne] using hprogress

/-- The last future of the chain leaves it when it settles with its outcome. -/
theorem settle {i : Nat} (h : w.Partly host (fun k => chain k ∨ k = i) v) (hi : ¬ chain i)
    {f : Future} {job : Job} (hf : w.futures[i]? = some f) (hp : f.progress = .pending job)
    {o : Except String TaskResult} (ho : o.mapError (.futureFailed f.name) = w.outcome host i) :
    w.Partly host chain (v.settle i o) where
  tables := h.tables
  absent k hk := by
    rw [getElem?_settle, h.absent k hk]
    split <;> rfl
  present k g hk := by
    obtain ⟨r, hr, hname, hprogress⟩ := h.present k g hk
    by_cases hki : i = k
    · subst hki
      rw [hf] at hk
      cases hk
      refine ⟨{ r with progress := .ofOutcome o }, ?_, hname,
        .inr (.inr ⟨hi, ⟨job, hp⟩, o, rfl, ho⟩)⟩
      rw [getElem?_settle, if_pos rfl, hr]
      rfl
    · have hne : k ≠ i := fun e => hki e.symm
      refine ⟨r, by rw [getElem?_settle, if_neg hki, hr], hname, ?_⟩
      simpa [hne] using hprogress

end Partly

/-- Two worlds that are settled in part from the same one. -/
abbrev Both (host : Host σ) (w : World σ) (chain chain' : Nat → Prop) (v u : World σ) : Prop :=
  w.Partly host chain v ∧ w.Partly host chain' u

theorem related_read {scope : Scope} {key : String}
    (hforce : ∀ i, w.bound? scope key = some i →
      Related (w.Both host chain chain') (Future.force host i) (Future.force host i)) :
    Related (w.Both host chain chain') (scope.read host key) (scope.read host key) := by
  induction scope with
  | nil => exact .pure _
  | cons layer rest ih =>
    cases layer with
    | fixed vars =>
      unfold Scope.read Scope.readWith
      cases hkey : Dict.get? vars key with
      | some value => exact .pure _
      | none =>
        apply ih
        intro i hi
        exact hforce i (by rw [bound?, hkey]; exact hi)
    | table index =>
      apply Related.getThen
      intro v u h
      dsimp only
      rw [h.1.table, h.2.table]
      cases hfuture : Dict.get? (w.table index).futures key with
      | some i =>
        apply (hforce i (by rw [bound?, hfuture])).bind
        intro o
        cases o <;> exact .pure _
      | none =>
        cases hkey : Dict.get? (w.table index).vars key with
        | some value => exact .pure _
        | none =>
          apply ih
          intro i hi
          exact hforce i (by rw [bound?, hfuture, hkey]; exact hi)

theorem related_plain {job : Job} (hjob : job.Plain)
    (hforce : ∀ p ∈ job.mentions, ∀ i, w.bound? p.1 p.2 = some i →
      Related (w.Both host chain chain') (Future.force host i) (Future.force host i)) :
    Related (w.Both host chain chain') (job.runWith host (Future.force host))
      (job.runWith host (Future.force host)) := by
  cases job with
  | read scope key =>
    exact (related_read (hforce (scope, key) (List.mem_singleton_self _))).bind fun _ => .pure _
  | evaluate scope text =>
    have hread (key : String) (hkey : key ∈ Expr.compiledNames (Expr.compile text)) :
        Related (w.Both host chain chain') (scope.read host key) (scope.read host key) :=
      related_read (hforce (scope, key) (List.mem_map.mpr ⟨key, hkey, rfl⟩))
    apply (Expr.related_run (Expr.compile text) hread).bind
    intro o
    cases o <;> exact .pure _
  | register table name later => exact hjob.elim
  | command command scope task => exact hjob.elim
  | succeed result => exact .pure _
  | fail message => exact .pure _
  | panic => exact .pure _

/-- Jobs answer, fail or read, and no future comes to read itself. -/
structure Orderless (w : World σ) : Prop where
  plain : ∀ (i : Nat) (f : Future) (job : Job), w.futures[i]? = some f →
    f.progress = .pending job → job.Plain
  acyclic : ∀ i, ¬ Relation.TransGen w.Mentions i i

/-- A future that reads none of the chain has its outcome, and the world stays
settled in part. -/
theorem Partly.force (hw : w.Orderless) (i : Nat) (h : w.Partly host chain v)
    (hfree : ∀ k, chain k → ¬ Relation.ReflTransGen w.Mentions i k) :
    ((Future.force host i).run v).1 = w.outcome host i ∧
      w.Partly host chain ((Future.force host i).run v).2 := by
  induction i using (wellFounded_mentions hw.acyclic).induction generalizing chain v with
  | _ i ih =>
    have hi : ¬ chain i := fun hc => hfree i hc .refl
    rcases h.answers_or_pending hi with hanswer | ⟨f, job, hf, hv, hp⟩
    · rw [Future.run_force_of_answer? hanswer]
      exact ⟨rfl, h⟩
    · -- The same job runs in both worlds, and reads only futures below this one.
      have hread (chain : Nat → Prop)
          (hchain : ∀ k, chain k → ¬ Relation.ReflTransGen w.Mentions i k) {j : Nat}
          (hij : w.Mentions i j) (k : Nat) (hk : chain k ∨ k = i) :
          ¬ Relation.ReflTransGen w.Mentions j k := by
        intro hjk
        rcases hk with hk | rfl
        · exact hchain k hk (.head hij hjk)
        · exact hw.acyclic k (Relation.TransGen.head' hij hjk)
      have hjob : Related (w.Both host (fun k => chain k ∨ k = i) (fun k => False ∨ k = i))
          (job.runWith host (Future.force host)) (job.runWith host (Future.force host)) := by
        apply related_plain (hw.plain i f job hf hp)
        intro p hmem j hj
        have hij : w.Mentions i j := ⟨f, job, hf, hp, p, hmem, hj⟩
        rintro v u ⟨hv, hu⟩
        obtain ⟨hanswer, hkeep⟩ := ih j hij hv (hread chain hfree hij)
        obtain ⟨hanswer', hkeep'⟩ := ih j hij hu (hread _ (fun _ => False.elim) hij)
        exact ⟨hanswer.trans hanswer'.symm, hkeep, hkeep'⟩
      obtain ⟨hsame, hkeep, -⟩ := hjob (v.start i) (w.start i)
        ⟨h.start hf hp, (Partly.refl host w).start hf hp⟩
      have houtcome : (((job.runWith host (Future.force host)).run (v.start i)).1).mapError
          (.futureFailed f.name) = w.outcome host i := by
        rw [hsame, outcome, Future.run_force_pending hf hp]
      rw [Future.run_force_pending hv hp]
      exact ⟨houtcome, hkeep.settle hi hf hp houtcome⟩

/-- Both worlds are settled in part, and nothing is running. -/
abbrev AtRest (host : Host σ) (w v u : World σ) : Prop :=
  w.Both host (fun _ => False) (fun _ => False) v u

theorem related_force (hw : w.Orderless) (i : Nat) :
    Related (w.AtRest host) (Future.force host i) (Future.force host i) := by
  rintro v u ⟨hv, hu⟩
  obtain ⟨hanswer, hkeep⟩ := hv.force hw i (fun _ => False.elim)
  obtain ⟨hanswer', hkeep'⟩ := hu.force hw i (fun _ => False.elim)
  exact ⟨hanswer.trans hanswer'.symm, hkeep, hkeep'⟩

theorem related_outcomes (hw : w.Orderless) (table : Nat) :
    Related (w.AtRest host) (Future.results host table) (Future.results host table) := by
  apply Related.getThen
  intro v u h
  have htables : v.futuresOf table = u.futuresOf table := by
    rw [futuresOf, futuresOf, h.1.table, h.2.table]
  rw [htables]
  exact .mapM fun (_, i) _ => (related_force hw i).bind fun _ => .pure _

theorem related_serve (hw : w.Orderless) {r : Request} (hr : r.Observes) :
    Related (w.AtRest host) (r.serve host) (r.serve host) := by
  have hread (scope : Scope) (key : String) :
      Related (w.AtRest host) (scope.read host key) (scope.read host key) :=
    related_read fun i _ => related_force hw i
  cases r with
  | add table name job => exact hr.elim
  | spawn i => exact (related_force hw i).bind fun _ => .pure _
  | get i => exact (related_force hw i).bind fun _ => .pure _
  | wait table =>
    exact ((related_outcomes hw table).bind fun _ => .pure _).bind fun _ => .pure _
  | results table => exact (related_outcomes hw table).bind fun _ => .pure _
  | read scope key => exact (hread scope key).bind fun _ => .pure _
  | evaluate scope text =>
    exact (Expr.related_run (Expr.compile text) fun key _ => hread scope key).bind fun _ => .pure _

/-- Requests that only observe are answered as if each were the first. -/
theorem session_replies (hw : w.Orderless) {requests : List Request}
    (hr : ∀ r ∈ requests, r.Observes) (hv : w.Partly host (fun _ => False) v) :
    ((session host requests).run v).1 = requests.map (fun r => ((r.serve host).run w).1) ∧
      w.Partly host (fun _ => False) ((session host requests).run v).2 := by
  induction requests generalizing v with
  | nil => exact ⟨rfl, hv⟩
  | cons r rest ih =>
    have hserve : Related (w.AtRest host) (r.serve host) (r.serve host) :=
      related_serve hw (hr r List.mem_cons_self)
    obtain ⟨hreply, hkeep, -⟩ := hserve v w ⟨hv, .refl host w⟩
    obtain ⟨hreplies, hend⟩ := ih (fun q hq => hr q (List.mem_cons_of_mem r hq)) hkeep
    have hrun : (session host (r :: rest)).run v =
        (((r.serve host).run v).1 :: ((session host rest).run ((r.serve host).run v).2).1,
          ((session host rest).run ((r.serve host).run v).2).2) := by
      unfold session
      rw [List.mapM_cons]
      rfl
    rw [hrun, List.map_cons, hreply, hreplies]
    exact ⟨rfl, hend⟩

theorem Partly.settled (h : w.Partly host (fun _ => False) v) {i : Nat} {g : Future}
    {o : Except String TaskResult} (hg : v.futures[i]? = some g) (ho : g.progress = .ofOutcome o) :
    (∃ f, w.futures[i]? = some f ∧ g.name = f.name) ∧
      o.mapError (.futureFailed g.name) = w.outcome host i := by
  constructor
  · cases hf : w.futures[i]? with
    | none =>
      rw [h.absent i hf] at hg
      cases hg
    | some f =>
      obtain ⟨g', hg', hname, -⟩ := h.present i f hf
      rw [hg] at hg'
      cases hg'
      exact ⟨f, rfl, hname⟩
  · rcases h.answers_or_pending (i := i) not_false with hanswer | ⟨f, job, -, hv, hp⟩
    · exact Option.some.inj ((answer?_of_settled hg ho).symm.trans hanswer)
    · rw [hg] at hv
      cases hv
      rw [ho] at hp
      cases o <;> cases hp

theorem Partly.settled_eq {u : World σ} (hu : w.Partly host (fun _ => False) u)
    (hv : w.Partly host (fun _ => False) v) {i : Nat} {f g : Future}
    {o o' : Except String TaskResult} (hf : u.futures[i]? = some f) (hg : v.futures[i]? = some g)
    (ho : f.progress = .ofOutcome o) (ho' : g.progress = .ofOutcome o') : f = g := by
  obtain ⟨⟨d, hd, hname⟩, houtcome⟩ := hu.settled hf ho
  obtain ⟨⟨d', hd', hname'⟩, houtcome'⟩ := hv.settled hg ho'
  have hnames : f.name = g.name := by
    rw [hname, hname', Option.some.inj (hd.symm.trans hd')]
  have hsame : o = o' := by
    have heq := houtcome.trans houtcome'.symm
    rw [hnames] at heq
    exact Error.futureFailed_injective g.name heq
  cases f
  cases g
  simp_all

/-- Over one world, in which jobs answer, fail or read and none comes to read
itself, two sequences of observing requests are answered as if every request
were the first; after either of them all observations agree, and so do the
futures that have settled. -/
theorem observations_agree (host : Host σ) {w : World σ} (hw : w.Orderless)
    {first second : List Request} (hfirst : ∀ r ∈ first, r.Observes)
    (hsecond : ∀ r ∈ second, r.Observes) :
    let u := ((session host first).run w).2
    let v := ((session host second).run w).2
    ((session host first).run w).1 = first.map (fun r => ((r.serve host).run w).1) ∧
    ((session host second).run w).1 = second.map (fun r => ((r.serve host).run w).1) ∧
    (∀ table, ((Future.results host table).run u).1 = ((Future.results host table).run v).1) ∧
    (∀ r : Request, r.Observes → ((r.serve host).run u).1 = ((r.serve host).run v).1) ∧
    ∀ (i : Nat) (f g : Future) (o o' : Except String TaskResult), u.futures[i]? = some f →
      v.futures[i]? = some g → f.progress = .ofOutcome o → g.progress = .ofOutcome o' → f = g := by
  intro u v
  obtain ⟨hreplies, hu⟩ := session_replies hw hfirst (Partly.refl host w)
  obtain ⟨hreplies', hv⟩ := session_replies hw hsecond (Partly.refl host w)
  refine ⟨hreplies, hreplies', fun table => ?_, fun r hr => ?_, fun i f g o o' => hu.settled_eq hv⟩
  · exact (related_outcomes hw table u v ⟨hu, hv⟩).1
  · exact (related_serve hw hr u v ⟨hu, hv⟩).1

/-- Surroundings without files and processes. -/
def bareHost : Host Unit where
  baseDir := ""
  pathExists _ _ := false
  runProcess _ _ s := (.notStarted "", s)
  runExternal _ _ _ s := (.ok {}, s)

/-- Three futures: the first reads the second, which reads the third. -/
def relay : World Unit where
  host := ()
  tables := #[{ vars := [("x", .int 7)], futures := [("a", 0), ("b", 1), ("c", 2)] }]
  futures := #[⟨"a", .pending (.read [.table 0] "b")⟩, ⟨"b", .pending (.read [.table 0] "c")⟩,
    ⟨"c", .pending (.fail "gone")⟩]

theorem relay_mentions {i j : Nat} (h : relay.Mentions i j) : i < j := by
  obtain ⟨f, job, hf, hp, p, hmem, hj⟩ := h
  have hi : i < 3 := (Array.getElem?_eq_some_iff.mp hf).1
  have hcases : i = 0 ∨ i = 1 ∨ i = 2 := by omega
  rcases hcases with rfl | rfl | rfl
  · cases hf
    cases hp
    cases List.mem_singleton.mp hmem
    cases hj
    decide
  · cases hf
    cases hp
    cases List.mem_singleton.mp hmem
    cases hj
    decide
  · cases hf
    cases hp
    cases hmem

theorem orderless_relay : relay.Orderless where
  plain i f job hf hp := by
    have hi : i < 3 := (Array.getElem?_eq_some_iff.mp hf).1
    have hcases : i = 0 ∨ i = 1 ∨ i = 2 := by omega
    rcases hcases with rfl | rfl | rfl <;> cases hf <;> cases hp <;> trivial
  acyclic i h := by
    have hlt {j k : Nat} (h : Relation.TransGen relay.Mentions j k) : j < k := by
      induction h with
      | single h => exact relay_mentions h
      | tail _ h ih => exact ih.trans (relay_mentions h)
    exact Nat.lt_irrefl i (hlt h)

theorem observations_agree_relay :
    relay.Orderless ∧ (∀ r ∈ [Request.get 0, .results 0], r.Observes) ∧
      (∀ r ∈ [Request.read [.table 0] "x", .spawn 2, .wait 0, .get 1], r.Observes) ∧
      ((Future.results bareHost 0).run
        ((session bareHost [.get 0, .results 0]).run relay).2).1 =
      ((Future.results bareHost 0).run
        ((session bareHost [.read [.table 0] "x", .spawn 2, .wait 0, .get 1]).run relay).2).1 := by
  have hfirst : ∀ r ∈ [Request.get 0, .results 0], r.Observes := by simp [Request.Observes]
  have hsecond : ∀ r ∈ [Request.read [.table 0] "x", .spawn 2, .wait 0, .get 1], r.Observes := by
    simp [Request.Observes]
  exact ⟨orderless_relay, hfirst, hsecond,
    (observations_agree bareHost orderless_relay hfirst hsecond).2.2.1 0⟩

end World

end PlaybookRunner
