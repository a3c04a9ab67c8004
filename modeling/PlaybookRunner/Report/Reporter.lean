import PlaybookRunner.Run.Event

/-!
# Reporters

A reporter goes through the events of a run with a state of its own; each event
changes the state and brings forth some output. Reporters can be combined.
-/

namespace PlaybookRunner

/-- A reporter with state `ρ` and output of type `ω`. -/
abbrev Reporter (ω ρ : Type) := Event → ρ → List ω × ρ

namespace Reporter

variable {ω ρ : Type}

/-- The reporter that keeps quiet. -/
def silent : Reporter ω ρ := fun _ state => ([], state)

/-- A reporter whose output depends on the event alone. -/
def ofLines (lines : Event → List ω) : Reporter ω ρ := fun event state => (lines event, state)

/-- Shows every event to one reporter and then to another. -/
def andThen (first second : Reporter ω ρ) : Reporter ω ρ := fun event state =>
  let (before, state) := first event state
  let (after, state) := second event state
  (before ++ after, state)

/-- Shows every event to several reporters in order. -/
def composite (reporters : List (Reporter ω ρ)) : Reporter ω ρ := reporters.foldr andThen silent

/-- Shows several events in order. -/
def run (reporter : Reporter ω ρ) : List Event → ρ → List ω × ρ
  | [], state => ([], state)
  | event :: rest, state =>
    let (before, state) := reporter event state
    let (after, state) := run reporter rest state
    (before ++ after, state)

end Reporter

end PlaybookRunner
