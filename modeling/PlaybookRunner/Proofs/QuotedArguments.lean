import PlaybookRunner.Proofs.ArgumentTexts
import PlaybookRunner.Proofs.Confluence

/-!
# Quoted arguments of commands

A text that is quoted in an argument text takes another way to a command than
one that stands among the structured arguments: what it says is taken for a
number or a truth value if it reads like one, and a command that wants a text
gets that number printed. A text that reads like neither arrives as it is.
-/

namespace PlaybookRunner

namespace Value

/-- What a plain text may stand for. -/
theorem infer_cases (s : String) :
    (∃ n, infer s = int n) ∨ (∃ x, infer s = float x) ∨
      (s = "true" ∧ infer s = bool true) ∨ (s = "false" ∧ infer s = bool false) ∨
      infer s = string s := by
  unfold infer
  split
  next n _ => exact .inl ⟨n, rfl⟩
  next =>
    split
    next x _ => exact .inr (.inl ⟨x, rfl⟩)
    next =>
      split_ifs with htrue hfalse
      · exact .inr (.inr (.inl ⟨htrue, rfl⟩))
      · exact .inr (.inr (.inr (.inl ⟨hfalse, rfl⟩)))
      · exact .inr (.inr (.inr (.inr rfl)))

/-- How a plain text is written after it has been taken for what it stands for: a number is
printed, and any other text is left as it is. There is none for an infinite double. -/
def respelled? (s : String) : Option String :=
  match infer s with
  | int n => some (toString n.toInt)
  | float x => if x.isFinite then some (Json.float x).compact else none
  | _ => some s

/-- A number, which a plain text may be taken for. -/
def IsNumber : Value → Prop
  | int _ | float _ => True
  | _ => False

theorem respelled?_of_not_isNumber {s : String} (h : ¬ (infer s).IsNumber) :
    respelled? s = some s := by
  unfold respelled?
  split
  next hn =>
    rw [hn] at h
    exact absurd trivial h
  next hx =>
    rw [hx] at h
    exact absurd trivial h
  next => rfl

theorem readText_infer (s : String) :
    Parameter.readText (infer s).toJson = .ok (respelled? s) := by
  unfold respelled?
  obtain ⟨n, h⟩ | ⟨x, h⟩ | ⟨rfl, h⟩ | ⟨rfl, h⟩ | h := infer_cases s <;> rw [h]
  · simp [toJson, Parameter.readText, Json.compact, Json.chars]
  · by_cases hx : x.isFinite = true <;> simp [toJson, floatTree, hx, Parameter.readText]
  · rfl
  · rfl
  · rfl

end Value

open Text Arguments

/-- Binds a built-in command from an argument text and structured arguments. -/
def bindCall (command args : String) (vars : Vars) : Except BindError Command :=
  bindParams command args vars >>= Registry.builtins.bind command

section

variable {key s : String} {value : List Char}

/-- The argument text of one parameter. -/
def argumentText (key : String) (value : List Char) : String :=
  String.ofList (key.toList ++ '=' :: value)

theorem bindParams_argumentText (hkey : isKey key.toList = true) (hvalue : Says value s.toList)
    (command : String) :
    bindParams command (argumentText key value) [] = .ok [(key, Value.infer s)] := by
  have hlead : allBlank [] = true := rfl
  have hleads : Leads Says [] (key.toList ++ '=' :: (value ++ ([] ++ []))) [(key, s)] :=
    .cons hkey hvalue rfl (.inr rfl) (.nil startsInk_nil)
  have hread := read?_of_leads hlead hleads
  rw [readFrom_nil] at hread
  simp only [List.append_nil, List.nil_append] at hread
  rw [bindParams, argumentText, hread]
  rfl

theorem bindParams_structured (command : String) (v : Value) :
    bindParams command "" [(key, v)] = .ok [(key, v)] := by
  have hread : read? "" = some [] := readFrom_nil []
  rw [bindParams, hread]
  rfl

theorem readVars_singleton {declared : List Parameter} {p : Parameter}
    (h : Parameter.find? declared key = some p) (v : Value) :
    Parameter.readVars declared [(key, v)] =
      (Parameter.readKind p.kind v.toJson).map fun value => [(p.name, value)] := by
  have htree : (Value.map [(key, v)]).toJson = .object [(key, v.toJson)] := rfl
  simp only [Parameter.readVars, htree, Parameter.readFields, h]
  cases Parameter.readKind p.kind v.toJson <;> rfl

theorem bind_debug (v : Value) :
    Registry.builtins.bind "debug" [("msg", v)] =
      ((Parameter.readText v.toJson).map fun text => .debug text none).mapError
        (.invalidArgs "debug") := by
  have hmessage : Parameter.find? Command.debugParameters "msg" =
      some { name := "msg", aliases := [rawKey], kind := .text } := rfl
  have hbinder : Dict.get? Registry.builtins "debug" = some Command.bindDebug := rfl
  rw [Registry.bind, hbinder]
  simp only [Command.bindDebug, readVars_singleton hmessage, Parameter.readKind]
  cases Parameter.readText v.toJson <;> rfl

theorem bind_assert (v : Value) :
    Registry.builtins.bind "assert" [("that", v)] =
      ((Parameter.readConditions v.toJson).map fun conditions => .check conditions none).mapError
        (.invalidArgs "assert") := by
  have hconditions : Parameter.find? Command.checkParameters "that" =
      some { name := "that", aliases := [rawKey], kind := .conditions } := rfl
  have hbinder : Dict.get? Registry.builtins "assert" = some Command.bindCheck := rfl
  rw [Registry.bind, hbinder]
  simp only [Command.bindCheck, readVars_singleton hconditions, Parameter.readKind]
  cases Parameter.readConditions v.toJson <;> rfl

theorem bindCall_structured (command : String) (v : Value) :
    bindCall command "" [(key, v)] = Registry.builtins.bind command [(key, v)] := by
  rw [bindCall, bindParams_structured]
  rfl

theorem bindCall_argumentText (hkey : isKey key.toList = true) (hvalue : Says value s.toList)
    (command : String) :
    bindCall command (argumentText key value) [] =
      Registry.builtins.bind command [(key, Value.infer s)] := by
  rw [bindCall, bindParams_argumentText hkey hvalue]
  rfl

end

variable {σ : Type}

/-- A call binds to a command that reports a message in every world, and leaves the world as it is. -/
def Reports (host : Host σ) (scope : Scope) (task : Task) (call : Except BindError Command)
    (message : String) : Prop :=
  ∃ command, call = .ok command ∧ ∀ world,
    (command.run host scope task).run world =
      (.ok { changed := false, failed := false, data := [("msg", .string message)] }, world)

section

variable {host : Host σ} {scope : Scope} {task : Task}

theorem Reports.message_eq {call : Except BindError Command} {message message' : String}
    (h : Reports host scope task call message) (h' : Reports host scope task call message')
    (world : World σ) : message = message' := by
  obtain ⟨command, rfl, hrun⟩ := h
  obtain ⟨command', hcommand, hrun'⟩ := h'
  cases hcommand
  cases (hrun world).symm.trans (hrun' world)
  rfl

end

section

variable (host : Host σ) (scope : Scope) (task : Task)

theorem reports_debug {v : Value} {message : String}
    (h : Parameter.readText v.toJson = .ok (some message)) :
    Reports host scope task (Registry.builtins.bind "debug" [("msg", v)]) message := by
  refine ⟨.debug (some message) none, ?_, fun _ => rfl⟩
  rw [bind_debug, h]
  rfl

theorem bind_assert_string (s : String) :
    Registry.builtins.bind "assert" [("that", .string s)] = .ok (.check [s] none) := by
  rw [bind_assert]
  rfl

/-- A quoted text reaches a command as what it is taken for, however it is quoted. A message
that is not taken for a number is reported as it is, and a number as it is printed; a condition
that is taken for a text is checked as it is. -/
theorem quoted_text_reaches_command (s : String) :
    (Reports host scope task (bindCall "debug" "" [("msg", .string s)]) s ∧
      bindCall "assert" "" [("that", .string s)] = .ok (.check [s] none)) ∧
    Says (singleQuote s.toList) s.toList ∧
    ∀ value, Says value s.toList →
      (∀ command key, isKey key.toList = true → bindCall command (argumentText key value) [] =
        bindCall command "" [(key, Value.infer s)]) ∧
      (¬ (Value.infer s).IsNumber →
        Reports host scope task (bindCall "debug" (argumentText "msg" value) []) s) ∧
      (∀ printed, Value.respelled? s = some printed →
        Reports host scope task (bindCall "debug" (argumentText "msg" value) []) printed) ∧
      (Value.infer s = .string s →
        bindCall "assert" (argumentText "that" value) [] = .ok (.check [s] none)) := by
  have hmsg : isKey "msg".toList = true := by decide
  have hthat : isKey "that".toList = true := by decide
  refine ⟨⟨?_, ?_⟩, says_singleQuote _, fun value hvalue => ?_⟩
  · rw [bindCall_structured]
    exact reports_debug host scope task rfl
  · rw [bindCall_structured, bind_assert_string]
  have hdebug {printed : String} (h : Value.respelled? s = some printed) :
      Reports host scope task (bindCall "debug" (argumentText "msg" value) []) printed := by
    rw [bindCall_argumentText hmsg hvalue]
    exact reports_debug host scope task (by rw [Value.readText_infer, h])
  refine ⟨fun command key hkey => ?_, fun h => hdebug (Value.respelled?_of_not_isNumber h),
    fun _ => hdebug, fun h => ?_⟩
  · rw [bindCall_argumentText hkey hvalue, bindCall_structured]
  · rw [bindCall_argumentText hthat hvalue, h, bind_assert_string]

end

/-- A text with a quote inside is not taken for a number, and one with leading zeros is. -/
theorem quoted_text_reaches_command_digits :
    let reported := Reports World.bareHost [] { name := "t", command := "debug" }
    (¬ (Value.infer "it's").IsNumber ∧ Value.infer "it's" = .string "it's" ∧
      Value.respelled? "007" = some "7" ∧ Says "it\\'s".toList "it's".toList) ∧
    reported (bindCall "debug" "msg=it\\'s" []) "it's" ∧
    bindCall "assert" "that=it\\'s" [] = .ok (.check ["it's"] none) ∧
    reported (bindCall "debug" "msg='007'" []) "7" ∧
    bindCall "set_fact" "n='007'" [] = bindCall "set_fact" "" [("n", .int 7)] := by
  intro reported
  have hink : ¬ (Value.infer "it's").IsNumber := id
  have hsays : Says "it\\'s".toList "it's".toList :=
    .char (by decide) (.char (by decide) (.escaped (by decide) (.char (by decide) .nil)))
  obtain ⟨-, -, htext⟩ :=
    quoted_text_reaches_command World.bareHost [] { name := "t", command := "debug" } "it's"
  obtain ⟨-, hdigits, hwritten⟩ :=
    quoted_text_reaches_command World.bareHost [] { name := "t", command := "debug" } "007"
  obtain ⟨-, hmsg, -, hthat⟩ := htext _ hsays
  obtain ⟨hfact, -, hnumber, -⟩ := hwritten _ hdigits
  exact ⟨⟨hink, rfl, rfl, hsays⟩, hmsg hink, hthat rfl, hnumber "7" rfl,
    hfact "set_fact" "n" (by decide)⟩

/-- A quoted message that is spelled like a number loses its spelling, which it keeps among the
structured arguments. -/
theorem quoted_number_is_respelled :
    argumentText "msg" (singleQuote "007".toList) = "msg='007'" ∧
      Reports World.bareHost [] { name := "t", command := "debug" }
        (bindCall "debug" "" [("msg", .string "007")]) "007" ∧
      ¬ Reports World.bareHost [] { name := "t", command := "debug" }
        (bindCall "debug" "msg='007'" []) "007" := by
  have htext : argumentText "msg" (singleQuote "007".toList) = "msg='007'" := rfl
  have hmsg : isKey "msg".toList = true := by decide
  refine ⟨htext, ?_, ?_⟩
  · rw [bindCall_structured]
    exact reports_debug _ _ _ rfl
  · rw [← htext, bindCall_argumentText hmsg (says_singleQuote _)]
    have hseven : Reports World.bareHost [] { name := "t", command := "debug" }
        (Registry.builtins.bind "debug" [("msg", Value.infer "007")]) "7" :=
      reports_debug _ _ _ rfl
    intro hkept
    exact absurd (hseven.message_eq hkept { host := () }) (by decide)

end PlaybookRunner
