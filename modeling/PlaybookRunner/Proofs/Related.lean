import Mathlib.Data.List.Forall2
import PlaybookRunner.Expr.Text

/-!
# Related computations

Two stateful computations are related when, from related states, they answer
alike and end in related states. Evaluation is generic in the reading of
variables, so related readings of the names of an expression give related
evaluations of it. An invariant is the relation of a state with itself.
-/

namespace PlaybookRunner

variable {ρ τ α β ε : Type}

/-- From related states both answer alike and end in related states. -/
def Related (R : ρ → τ → Prop) (x : StateM ρ α) (y : StateM τ α) : Prop :=
  ∀ s t, R s t → (x.run s).1 = (y.run t).1 ∧ R (x.run s).2 (y.run t).2

namespace Related

variable {R : ρ → τ → Prop}

theorem pure (a : α) : Related R (pure a) (pure a) := fun _ _ h => ⟨rfl, h⟩

theorem bind {x : StateM ρ α} {y : StateM τ α} {f : α → StateM ρ β} {g : α → StateM τ β}
    (hx : Related R x y) (hf : ∀ a, Related R (f a) (g a)) : Related R (x >>= f) (y >>= g) := by
  intro s t h
  obtain ⟨ha, h'⟩ := hx s t h
  change ((f (x.run s).1).run (x.run s).2).1 = ((g (y.run t).1).run (y.run t).2).1 ∧
    R ((f (x.run s).1).run (x.run s).2).2 ((g (y.run t).1).run (y.run t).2).2
  rw [← ha]
  exact hf _ _ _ h'

/-- After reading the states one may use that they are related. -/
theorem getThen {f : ρ → StateM ρ α} {g : τ → StateM τ α}
    (h : ∀ s t, R s t → Related R (f s) (g t)) : Related R (get >>= f) (get >>= g) :=
  fun s t hst => h s t hst s t hst

theorem setThen {s : ρ} {t : τ} {x : StateM ρ α} {y : StateM τ α} (h : R s t)
    (hxy : Related R x y) : Related R (set s >>= fun _ => x) (set t >>= fun _ => y) :=
  fun _ _ _ => hxy s t h

theorem modifyThen {change : ρ → ρ} {change' : τ → τ} {x : StateM ρ α} {y : StateM τ α}
    (h : ∀ {s t}, R s t → R (change s) (change' t)) (hxy : Related R x y) :
    Related R (modify change >>= fun _ => x) (modify change' >>= fun _ => y) :=
  fun s t hst => hxy (change s) (change' t) (h hst)

theorem mapM {f : β → StateM ρ α} {g : β → StateM τ α} {bs : List β}
    (h : ∀ b ∈ bs, Related R (f b) (g b)) : Related R (bs.mapM f) (bs.mapM g) := by
  induction bs with
  | nil => exact .pure _
  | cons b bs ih =>
    rw [List.mapM_cons, List.mapM_cons]
    apply (h b List.mem_cons_self).bind
    intro a
    exact (ih fun c hc => h c (List.mem_cons_of_mem b hc)).bind fun as => .pure _

theorem bindExcept {x : ExceptT ε (StateM ρ) α} {y : ExceptT ε (StateM τ) α}
    {f : α → ExceptT ε (StateM ρ) β} {g : α → ExceptT ε (StateM τ) β}
    (hx : Related R x.run y.run) (hf : ∀ a, Related R (f a).run (g a).run) :
    Related R (x >>= f).run (y >>= g).run := by
  change Related R (x.run >>= ExceptT.bindCont f) (y.run >>= ExceptT.bindCont g)
  apply hx.bind
  intro o
  cases o with
  | error e => exact pure _
  | ok a => exact hf a

theorem pureExcept (a : α) :
    Related R (Pure.pure a : ExceptT ε (StateM ρ) α).run
      (Pure.pure a : ExceptT ε (StateM τ) α).run := pure _

end Related

namespace Expr

mutual

/-- The names that evaluation may read. -/
def names : Expr → List String
  | symbol path => [headName path]
  | list items => namesEach items
  | concat parts => namesEach parts
  | call _ args => namesEach args
  | _ => []

def namesEach : List Expr → List String
  | [] => []
  | e :: rest => names e ++ namesEach rest

end

/-- The names that evaluation of a compiled text may read. -/
def compiledNames : Except ExprError Expr → List String
  | .error _ => []
  | .ok e => e.names

/-- Actions that are related one by one. -/
abbrev RelatedEach (R : ρ → τ → Prop) (xs : List (ExceptT EvalError (StateM ρ) Value))
    (ys : List (ExceptT EvalError (StateM τ) Value)) : Prop :=
  List.Forall₂ (fun x y => Related R x.run y.run) xs ys

section

variable {R : ρ → τ → Prop} {xs : List (ExceptT EvalError (StateM ρ) Value)}
  {ys : List (ExceptT EvalError (StateM τ) Value)}

theorem related_runAll (h : RelatedEach R xs ys) : Related R (runAll xs).run (runAll ys).run := by
  induction h with
  | nil => exact .pureExcept _
  | cons hx _ ih => exact hx.bindExcept fun v => ih.bindExcept fun vs => .pureExcept _

theorem related_runWhile (wanted : Bool) (h : RelatedEach R xs ys) :
    Related R (runWhile wanted xs).run (runWhile wanted ys).run := by
  induction h with
  | nil => exact .pureExcept _
  | cons hx _ ih =>
    apply hx.bindExcept
    intro v
    by_cases hv : v.truthy == wanted
    · simpa only [if_pos hv] using ih
    · simpa only [if_neg hv] using .pureExcept _

theorem related_attempt {x : ExceptT EvalError (StateM ρ) Value}
    {y : ExceptT EvalError (StateM τ) Value} (h : Related R x.run y.run) :
    Related R (attempt x).run (attempt y).run := by
  apply Related.bind h
  intro o
  rcases o with e | v
  · cases e <;> exact .pure _
  · exact .pure _

theorem related_runCall (op : String) (h : RelatedEach R xs ys) :
    Related R (runCall op xs).run (runCall op ys).run := by
  have hlength : xs.length = ys.length := h.length_eq
  unfold runCall
  split
  case h_1 =>
    rcases h with _ | ⟨htest, _ | ⟨hyes, _ | ⟨hno, _ | _⟩⟩⟩ <;> simp only [hlength]
    · exact .pure _
    · exact .pure _
    · apply htest.bindExcept
      intro v
      cases v.truthy
      · exact .pureExcept _
      · exact hyes
    · apply htest.bindExcept
      intro v
      cases v.truthy
      · exact hno
      · exact hyes
    · exact .pure _
  case h_2 => exact related_runWhile true h
  case h_3 => exact related_runWhile false h
  case h_4 =>
    rcases h with _ | ⟨ha, _ | _⟩ <;> simp only [hlength]
    · exact .pure _
    · exact (related_attempt ha).bindExcept fun _ => .pureExcept _
    · exact .pure _
  case h_5 =>
    rcases h with _ | ⟨ha, _ | ⟨hb, _ | _⟩⟩ <;> simp only [hlength]
    · exact .pure _
    · exact .pure _
    · apply (related_attempt ha).bindExcept
      intro o
      cases o with
      | none => exact hb
      | some v => exact .pureExcept _
    · exact .pure _
  case h_6 =>
    apply (related_runAll h).bindExcept
    intro vs
    cases apply op vs with
    | error e => exact .pure _
    | ok v => exact .pureExcept _

end

section

variable {R : ρ → τ → Prop} {look : String → StateM ρ (Option Value)}
  {look' : String → StateM τ (Option Value)}

theorem related_resolve (path : String)
    (h : Related R (look (headName path)) (look' (headName path))) :
    Related R (resolve look path).run (resolve look' path).run :=
  h.bind fun _ => .pure _

mutual

theorem related_eval (e : Expr) (h : ∀ k ∈ e.names, Related R (look k) (look' k)) :
    Related R (eval look e).run (eval look' e).run := by
  cases e with
  | symbol path => exact related_resolve path (h _ (by simp [names]))
  | list items =>
    rw [eval, eval]
    exact (related_runAll (related_evalEach items h)).bindExcept fun _ => .pureExcept _
  | concat parts =>
    rw [eval, eval]
    exact (related_runAll (related_evalEach parts h)).bindExcept fun _ => .pureExcept _
  | call op args =>
    rw [eval, eval]
    exact related_runCall op (related_evalEach args h)
  | _ => exact .pureExcept _

theorem related_evalEach (es : List Expr) (h : ∀ k ∈ namesEach es, Related R (look k) (look' k)) :
    RelatedEach R (evalEach look es) (evalEach look' es) := by
  cases es with
  | nil => exact .nil
  | cons e rest =>
    refine .cons (related_eval e fun k hk => h k ?_) (related_evalEach rest fun k hk => h k ?_)
    · exact List.mem_append_left _ hk
    · exact List.mem_append_right _ hk

end

theorem related_run (compiled : Except ExprError Expr)
    (h : ∀ k ∈ compiledNames compiled, Related R (look k) (look' k)) :
    Related R (run look compiled) (run look' compiled) := by
  cases compiled with
  | error e => exact .pure _
  | ok e =>
    apply (related_eval e h).bind
    intro o
    cases o <;> exact .pure _

theorem related_expandTemplate (text : String)
    (h : ∀ k ∈ compiledNames (compileTemplate text), Related R (look k) (look' k)) :
    Related R (expandTemplate look text) (expandTemplate look' text) :=
  (related_run _ h).bind fun _ => .pure _

end

end Expr

end PlaybookRunner
