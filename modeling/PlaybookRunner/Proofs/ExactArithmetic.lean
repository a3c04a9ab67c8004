import PlaybookRunner.Expr.Eval

/-!
# Exact arithmetic

The operators `+ - * / %` on words against the whole numbers. The exact results
of an operator are those it comes to from left to right, and the answer is
settled by them: a zero among the divisors is an error, the last of them is the
answer as long as all of them fit a word, and a double is the answer otherwise.
The opposite of the least word is the one exception.
-/

namespace PlaybookRunner.Expr

/-- The operators on numbers. -/
def arithmeticOps : List String := ["+", "-", "*", "/", "%"]

/-- The operation of an operator on whole numbers; division truncates towards zero. -/
def exactStep (op : String) : Int → Int → Int :=
  match op with
  | "+" => (· + ·)
  | "-" => (· - ·)
  | "*" => (· * ·)
  | "/" => Int.tdiv
  | _ => Int.tmod

/-- The results an operator comes to from left to right, its answer last. -/
def exactResults (op : String) : List Int → List Int
  | [] => []
  | [a] => [if op = "-" then -a else a]
  | a :: rest => rest.scanl (exactStep op) a

/-- The numbers an operator divides by. -/
def divisors (op : String) (numbers : List Int) : List Int :=
  if op = "/" ∨ op = "%" then numbers.tail else []

/-- The numbers of arguments that an operator takes. -/
def accepts (op : String) (count : Nat) : Bool :=
  match op with
  | "/" => decide (2 ≤ count)
  | "%" => count == 2
  | _ => decide (1 ≤ count)

/-- The answers that exact arithmetic admits. -/
inductive Exact (divisors results : List Int) : Except EvalError Value → Prop
  | divided (zero : 0 ∈ divisors) : Exact divisors results (.error .divisionByZero)
  | word {n : Int64} (nonzero : 0 ∉ divisors) (fits : ∀ r ∈ results, Decimal.fitsWord r = true)
      (last : results.getLast? = some n.toInt) : Exact divisors results (.ok (.int n))
  | double {x : Float} {r : Int} (nonzero : 0 ∉ divisors) (mem : r ∈ results)
      (beyond : Decimal.fitsWord r = false) : Exact divisors results (.ok (.float x))

namespace Exact

variable {ds rs : List Int} {answer : Except EvalError Value}

theorem eq_int_iff (h : Exact ds rs answer) (n : Int64) :
    answer = .ok (.int n) ↔
      0 ∉ ds ∧ (∀ r ∈ rs, Decimal.fitsWord r = true) ∧ rs.getLast? = some n.toInt := by
  cases h with
  | divided zero => exact ⟨nofun, fun h => absurd zero h.1⟩
  | double nonzero mem beyond =>
    refine ⟨nofun, fun h => ?_⟩
    rw [h.2.1 _ mem] at beyond
    cases beyond
  | @word m nonzero fits last =>
    constructor
    · rintro ⟨⟩
      exact ⟨nonzero, fits, last⟩
    · rintro ⟨-, -, hn⟩
      rw [last, Option.some_inj, Int64.toInt_inj] at hn
      rw [hn]

theorem eq_float_iff (h : Exact ds rs answer) :
    (∃ x, answer = .ok (.float x)) ↔ 0 ∉ ds ∧ ∃ r ∈ rs, Decimal.fitsWord r = false := by
  cases h with
  | divided zero => exact ⟨nofun, fun h => absurd zero h.1⟩
  | double nonzero mem beyond => exact ⟨fun _ => ⟨nonzero, _, mem, beyond⟩, fun _ => ⟨_, rfl⟩⟩
  | word nonzero fits last =>
    refine ⟨nofun, ?_⟩
    rintro ⟨-, r, mem, beyond⟩
    rw [fits r mem] at beyond
    cases beyond

theorem eq_divisionByZero_iff (h : Exact ds rs answer) :
    answer = .error .divisionByZero ↔ 0 ∈ ds := by
  cases h with
  | divided zero => exact ⟨fun _ => zero, fun _ => rfl⟩
  | word nonzero _ _ => exact ⟨nofun, fun h => absurd h nonzero⟩
  | double nonzero _ _ => exact ⟨nofun, fun h => absurd h nonzero⟩

/-- A result that fits and is not the last changes nothing. -/
theorem cons (h : Exact ds rs answer) (hrs : rs ≠ []) {r : Int}
    (hr : Decimal.fitsWord r = true) : Exact ds (r :: rs) answer := by
  cases h with
  | divided zero => exact .divided zero
  | double nonzero mem beyond => exact .double nonzero (List.mem_cons_of_mem _ mem) beyond
  | word nonzero fits last =>
    refine .word nonzero (List.forall_mem_cons.mpr ⟨hr, fits⟩) ?_
    obtain ⟨s, ss, rfl⟩ := List.exists_cons_of_ne_nil hrs
    rwa [List.getLast?_cons_cons]

/-- A divisor other than zero changes nothing. -/
theorem divisor (h : Exact ds rs answer) {d : Int} (hd : d ≠ 0) : Exact (d :: ds) rs answer := by
  have hmem : 0 ∈ d :: ds ↔ 0 ∈ ds := by simp [hd.symm]
  cases h with
  | divided zero => exact .divided (hmem.mpr zero)
  | word nonzero fits last => exact .word (mt hmem.mp nonzero) fits last
  | double nonzero mem beyond => exact .double (mt hmem.mp nonzero) mem beyond

end Exact

/-- The operators that fold their arguments. -/
def foldOps : List String := ["+", "-", "*", "/"]

section

variable {op : String}

theorem combine_of_fits (hop : op ∈ foldOps) {x y : Int64} (hy : op = "/" → y ≠ 0)
    (h : Decimal.fitsWord (exactStep op x.toInt y.toInt) = true) :
    Number.combine op (.int x) (.int y) =
      .ok (.int (Int64.ofInt (exactStep op x.toInt y.toInt))) := by
  simp only [foldOps, List.mem_cons, List.not_mem_nil, or_false] at hop
  obtain rfl | rfl | rfl | rfl := hop <;> simp only [exactStep] at h ⊢
  case inr.inr.inr =>
    have hzero : (y == 0) = false := by simpa using hy rfl
    simp [Number.combine, Number.isZero, hzero, Number.wholeOr, Number.word?, h]
  all_goals simp [Number.combine, Number.wholeOr, Number.word?, h]

theorem combine_of_beyond (hop : op ∈ foldOps) {x y : Int64} (hy : op = "/" → y ≠ 0)
    (h : Decimal.fitsWord (exactStep op x.toInt y.toInt) = false) :
    ∃ z, Number.combine op (.int x) (.int y) = .ok (.float z) := by
  simp only [foldOps, List.mem_cons, List.not_mem_nil, or_false] at hop
  obtain rfl | rfl | rfl | rfl := hop <;> simp only [exactStep] at h
  case inr.inr.inr =>
    have hzero : (y == 0) = false := by simpa using hy rfl
    simp [Number.combine, Number.isZero, hzero, Number.wholeOr, Number.word?, h]
  all_goals simp [Number.combine, Number.wholeOr, Number.word?, h]

theorem combine_float (hop : op ∈ foldOps) (z : Float) {y : Int64} (hy : op = "/" → y ≠ 0) :
    ∃ w, Number.combine op (.float z) (.int y) = .ok (.float w) := by
  simp only [foldOps, List.mem_cons, List.not_mem_nil, or_false] at hop
  obtain rfl | rfl | rfl | rfl := hop
  case inr.inr.inr =>
    have hzero : (y == 0) = false := by simpa using hy rfl
    exact ⟨z / Value.wordFloat y, by simp [Number.combine, Number.isZero, hzero, Number.wholeOr,
      Number.toFloat]⟩
  all_goals exact ⟨_, rfl⟩

/-- What the words after the first are for a fold. -/
def foldDivisors (op : String) (words : List Int64) : List Int :=
  if op = "/" then words.map Int64.toInt else []

theorem foldDivisors_cons (y : Int64) (ys : List Int64) :
    foldDivisors op (y :: ys) =
      if op = "/" then y.toInt :: foldDivisors op ys else foldDivisors op ys := by
  unfold foldDivisors
  split <;> rfl

/-- A fold that has left the words does not come back to them. -/
theorem exact_combineAll_float (hop : op ∈ foldOps) {rs : List Int} {r : Int} (hr : r ∈ rs)
    (hbeyond : Decimal.fitsWord r = false) (z : Float) (ys : List Int64) :
    Exact (foldDivisors op ys) rs
      ((Number.combineAll op (.float z) (ys.map .int)).map Number.toValue) := by
  induction ys generalizing z with
  | nil => exact .double (by simp [foldDivisors]) hr hbeyond
  | cons y ys ih =>
    rw [foldDivisors_cons]
    by_cases hy : op = "/" ∧ y = 0
    · obtain ⟨rfl, rfl⟩ := hy
      exact .divided (by simp)
    · obtain ⟨w, hw⟩ := combine_float hop z fun hop => fun hzero => hy ⟨hop, hzero⟩
      simp only [List.map_cons, Number.combineAll, Number.ofValue, hw]
      split
      next hdiv =>
        exact (ih w).divisor fun hzero => hy ⟨hdiv, Int64.toInt_inj.mp hzero⟩
      next => exact ih w

theorem exact_foldNumbers (hop : op ∈ foldOps) (x : Int64) (ys : List Int64) :
    Exact (foldDivisors op ys) ((ys.map Int64.toInt).scanl (exactStep op) x.toInt)
      (foldNumbers op (.int x) (ys.map .int)) := by
  induction ys generalizing x with
  | nil =>
    refine .word (by simp [foldDivisors]) ?_ rfl
    simp [Decimal.fitsWord_toInt]
  | cons y ys ih =>
    rw [foldDivisors_cons, List.map_cons, List.scanl_cons]
    by_cases hy : op = "/" ∧ y = 0
    · obtain ⟨rfl, rfl⟩ := hy
      exact .divided (by simp)
    -- The divisor is no zero: what remains is to fold from the next result on.
    have hzero : op = "/" → y ≠ 0 := fun hop hzero => hy ⟨hop, hzero⟩
    have hstep {ds rs answer} (h : Exact ds rs answer) :
        Exact (if op = "/" then y.toInt :: ds else ds) rs answer := by
      split
      next hdiv => exact h.divisor fun h0 => hzero hdiv (Int64.toInt_inj.mp h0)
      next => exact h
    cases hfits : Decimal.fitsWord (exactStep op x.toInt y.toInt) with
    | true =>
      have hnext := ih (Int64.ofInt (exactStep op x.toInt y.toInt))
      rw [Decimal.toInt_ofInt_of_fitsWord hfits] at hnext
      have hfold : foldNumbers op (.int x) ((y :: ys).map .int) =
          foldNumbers op (.int (Int64.ofInt (exactStep op x.toInt y.toInt))) (ys.map .int) := by
        simp only [foldNumbers, Number.ofValue, List.map_cons, Number.combineAll,
          combine_of_fits hop hzero hfits]
      rw [hfold]
      exact (hstep hnext).cons List.scanl_ne_nil (Decimal.fitsWord_toInt x)
    | false =>
      obtain ⟨z, hz⟩ := combine_of_beyond hop hzero hfits
      have hmem : exactStep op x.toInt y.toInt ∈
          x.toInt :: (ys.map Int64.toInt).scanl (exactStep op) (exactStep op x.toInt y.toInt) :=
        List.mem_cons_of_mem _ (by cases ys <;> simp)
      have hfold : foldNumbers op (.int x) ((y :: ys).map .int) =
          (Number.combineAll op (.float z) (ys.map .int)).map Number.toValue := by
        simp only [foldNumbers, Number.ofValue, List.map_cons, Number.combineAll, hz]
      rw [hfold]
      exact hstep (exact_combineAll_float hop hmem hfits z ys)

end

theorem exact_negate {x : Int64} (hx : x ≠ Int64.minValue) :
    Exact [] [-x.toInt] (negate (.int x)) := by
  have hleast : x.toInt ≠ -2 ^ 63 := fun h => hx (Int64.toInt_inj.mp h)
  have hfits : Decimal.fitsWord (-x.toInt) = true := by
    have hlower := x.le_toInt
    have hupper := x.toInt_lt
    rw [Decimal.fitsWord_iff]
    omega
  refine .word (n := -x) List.not_mem_nil (by simpa using hfits) ?_
  rw [Int64.toInt_neg, List.getLast?_singleton, ← Int64.toInt_ofInt,
    Decimal.toInt_ofInt_of_fitsWord hfits]

theorem exact_remainder (x y : Int64) :
    Exact [y.toInt] [x.toInt, Int.tmod x.toInt y.toInt] (remainder (.int x) (.int y)) := by
  by_cases hy : y = 0
  · subst hy
    exact .divided List.mem_cons_self
  · have hzero : y.toInt ≠ 0 := fun h => hy (Int64.toInt_inj.mp h)
    have hfits : Decimal.fitsWord (Int.tmod x.toInt y.toInt) = true := by
      have hsize : (Int.tmod x.toInt y.toInt).natAbs < y.toInt.natAbs := by
        rw [Int.natAbs_tmod]
        exact Nat.mod_lt _ (Int.natAbs_pos.mpr hzero)
      have hlower := y.le_toInt
      have hupper := y.toInt_lt
      rw [Decimal.fitsWord_iff]
      omega
    have hanswer : remainder (.int x) (.int y) =
        .ok (.int (Int64.ofInt (Int.tmod x.toInt y.toInt))) := by simp [remainder, hy]
    rw [hanswer]
    refine .word (by simpa using hzero.symm) ?_ ?_
    · simp [Decimal.fitsWord_toInt, hfits]
    · rw [Decimal.toInt_ofInt_of_fitsWord hfits]
      rfl

theorem apply_eq_foldNumbers {op : String} (hop : op ∈ foldOps) {x : Int64} {ys : List Int64}
    (haccepts : accepts op (x :: ys).length = true) (hys : op = "-" → ys ≠ []) :
    apply op ((x :: ys).map .int) = foldNumbers op (.int x) (ys.map .int) := by
  simp only [foldOps, List.mem_cons, List.not_mem_nil, or_false] at hop
  obtain rfl | rfl | rfl | rfl := hop
  · rfl
  · cases ys with
    | nil => exact absurd rfl (hys rfl)
    | cons y rest => rfl
  · rfl
  · cases ys with
    | nil => cases haccepts
    | cons y rest => rfl

theorem exactResults_cons {op : String} (x : Int) {ys : List Int} (hys : op = "-" → ys ≠ []) :
    exactResults op (x :: ys) = ys.scanl (exactStep op) x := by
  cases ys with
  | cons y rest => rfl
  | nil =>
    have hop : op ≠ "-" := fun h => hys h rfl
    simp [exactResults, hop]

theorem divisors_cons {op : String} (hop : op ∈ foldOps) (x : Int64) (ys : List Int64) :
    divisors op ((x :: ys).map Int64.toInt) = foldDivisors op ys := by
  simp only [foldOps, List.mem_cons, List.not_mem_nil, or_false] at hop
  obtain rfl | rfl | rfl | rfl := hop <;> rfl

theorem exact_apply {op : String} (hop : op ∈ arithmeticOps) {words : List Int64}
    (haccepts : accepts op words.length = true)
    (hleast : ¬(op = "-" ∧ words = [Int64.minValue])) :
    Exact (divisors op (words.map Int64.toInt)) (exactResults op (words.map Int64.toInt))
      (apply op (words.map .int)) := by
  have hcases : op ∈ foldOps ∨ op = "%" := by simpa [arithmeticOps, foldOps, or_assoc] using hop
  obtain hfold | rfl := hcases
  · cases words with
    | nil => exact absurd haccepts (by unfold accepts; split <;> simp)
    | cons x ys =>
      by_cases hys : op = "-" → ys ≠ []
      · rw [apply_eq_foldNumbers hfold haccepts hys, divisors_cons hfold, List.map_cons,
          exactResults_cons _ (by simpa using hys)]
        exact exact_foldNumbers hfold x ys
      · obtain ⟨rfl, rfl⟩ : op = "-" ∧ ys = [] := by simpa using hys
        exact exact_negate fun hx => hleast ⟨rfl, by rw [hx]⟩
  · match words, haccepts with
    | [x, y], _ => exact exact_remainder x y

theorem apply_of_not_accepts {op : String} (hop : op ∈ arithmeticOps) {words : List Int64}
    (haccepts : accepts op words.length = false) :
    ∃ expected, apply op (words.map .int) = .error (.arity op expected words.length) := by
  simp only [arithmeticOps, List.mem_cons, List.not_mem_nil, or_false] at hop
  match words with
  | [] => obtain rfl | rfl | rfl | rfl | rfl := hop <;> exact ⟨_, rfl⟩
  | [x] =>
    obtain rfl | rfl | rfl | rfl | rfl := hop
    case inr.inr.inr.inl | inr.inr.inr.inr => exact ⟨_, rfl⟩
    all_goals cases haccepts
  | [x, y] => obtain rfl | rfl | rfl | rfl | rfl := hop <;> cases haccepts
  | x :: y :: z :: rest =>
    obtain rfl | rfl | rfl | rfl | rfl := hop
    case inr.inr.inr.inr => exact ⟨"2", by simp [apply, binary]⟩
    all_goals simp [accepts] at haccepts

/-- A call of an operator on numbers evaluates its arguments and applies the operator to them. -/
theorem eval_arithmetic {m : Type → Type} [Monad m] (look : String → m (Option Value))
    {op : String} (hop : op ∈ arithmeticOps) (args : List Expr) :
    eval look (.call op args) =
      runAll (evalEach look args) >>= fun values => MonadExcept.ofExcept (apply op values) := by
  simp only [arithmeticOps, List.mem_cons, List.not_mem_nil, or_false] at hop
  obtain rfl | rfl | rfl | rfl | rfl := hop
  all_goals
    rw [eval]
    refine congrArg (runAll (evalEach look args) >>= ·) (funext fun values => ?_)
    cases apply _ values <;> rfl

/-- Arithmetic on words is exact: the last exact result is the answer when all of them fit a word,
a double is the answer when one of them does not, and a zero divisor is an error. -/
theorem arithmetic_is_exact {m : Type → Type} [Monad m] (look : String → m (Option Value))
    {op : String} (hop : op ∈ arithmeticOps) :
    (∀ args, eval look (.call op args) =
      runAll (evalEach look args) >>= fun values => MonadExcept.ofExcept (apply op values)) ∧
    ∀ words : List Int64,
      (accepts op words.length = false →
        ∃ expected, apply op (words.map .int) = .error (.arity op expected words.length)) ∧
      (accepts op words.length = true → ¬(op = "-" ∧ words = [Int64.minValue]) →
        (∀ n, apply op (words.map .int) = .ok (.int n) ↔
          0 ∉ divisors op (words.map Int64.toInt) ∧
          (∀ r ∈ exactResults op (words.map Int64.toInt), Decimal.fitsWord r = true) ∧
          (exactResults op (words.map Int64.toInt)).getLast? = some n.toInt) ∧
        ((∃ x, apply op (words.map .int) = .ok (.float x)) ↔
          0 ∉ divisors op (words.map Int64.toInt) ∧
          ∃ r ∈ exactResults op (words.map Int64.toInt), Decimal.fitsWord r = false) ∧
        (apply op (words.map .int) = .error .divisionByZero ↔
          0 ∈ divisors op (words.map Int64.toInt))) := by
  refine ⟨eval_arithmetic look hop, fun words => ⟨apply_of_not_accepts hop, ?_⟩⟩
  intro haccepts hleast
  have hexact := exact_apply hop haccepts hleast
  exact ⟨hexact.eq_int_iff, hexact.eq_float_iff, hexact.eq_divisionByZero_iff⟩

/-- The least word divided by the opposite of one leaves the words. -/
theorem arithmetic_is_exact_leastQuotient :
    "/" ∈ arithmeticOps ∧ accepts "/" 2 = true ∧
      ∃ x, apply "/" [.int Int64.minValue, .int (-1)] = .ok (.float x) := by
  have hop : "/" ∈ arithmeticOps := by decide
  have haccepts : accepts "/" 2 = true := rfl
  refine ⟨hop, haccepts, ?_⟩
  obtain ⟨-, hwords⟩ := arithmetic_is_exact (m := Id) (fun _ => none) hop
  obtain ⟨-, hfloat, -⟩ := (hwords [Int64.minValue, -1]).2 haccepts (by decide)
  exact hfloat.mpr ⟨by decide, 2 ^ 63, by decide, by decide⟩

/-- The opposite of the least word is no word, and yet a word is the answer. -/
theorem opposite_of_least_wraps :
    apply "-" [.int Int64.minValue] = .ok (.int Int64.minValue) ∧
      exactResults "-" [Int64.minValue.toInt] = [9223372036854775808] ∧
      Int64.minValue.toInt ≠ 9223372036854775808 ∧
      Decimal.fitsWord 9223372036854775808 = false :=
  ⟨rfl, by decide, by decide, by decide⟩

end PlaybookRunner.Expr
