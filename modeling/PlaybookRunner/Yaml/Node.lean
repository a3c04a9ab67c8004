import PlaybookRunner.Yaml.Token

/-!
# YAML documents

The tokens of a text form at most one document. An alias stands for the node
that last got its name; a node cannot stand inside itself, and aliases may not
make a document grow beyond measure.
-/

namespace PlaybookRunner.Yaml

/-- A node of a document, with its tag if it has one. -/
inductive Node
  | scalar (tag : Option String) (isPlain : Bool) (text : String)
  | sequence (tag : Option String) (items : List Node)
  | mapping (tag : Option String) (pairs : List (Node × Node))
deriving Inhabited

/-- The node without content. -/
def Node.empty (tag : Option String) : Node := .scalar tag true ""

mutual

/-- How many collections stand inside each other. -/
def Node.height : Node → Nat
  | .scalar .. => 0
  | .sequence _ items => Node.itemsHeight items + 1
  | .mapping _ pairs => Node.pairsHeight pairs + 1

/-- The greatest height of some items. -/
def Node.itemsHeight : List Node → Nat
  | [] => 0
  | item :: rest => max item.height (Node.itemsHeight rest)

/-- The greatest height of some pairs. -/
def Node.pairsHeight : List (Node × Node) → Nat
  | [] => 0
  | (k, v) :: rest => max (max k.height v.height) (Node.pairsHeight rest)

end

/-- How many collections may stand inside each other. -/
def heightLimit : Nat := 128

/-- A node that has a name: complete, with the number of aliases in it, or not yet. -/
abbrev Anchored := Option (Node × Nat)

/-- The state of the composition. -/
structure Composer where
  tokens : List Token
  /-- The handles of tags and what they stand for. -/
  handles : List (String × String) := []
  /-- Where the names lead to. -/
  names : List (String × Nat) := []
  anchored : Array Anchored := #[]
  /-- The number of aliases that were followed, those inside aliases included. -/
  jumps : Nat := 0
  /-- The number of starts and ends of nodes. -/
  events : Nat := 0

/-- A part of the composition; it may find the document malformed. -/
abbrev Compose := StateT Composer Option

namespace Compose

/-- The document is malformed. -/
def fail {α : Type} : Compose α := fun _ => none

/-- The next token. -/
def peek : Compose (Option Token) := return (← get).tokens.head?

/-- Goes over a token. -/
def drop : Compose Unit := modify fun s => { s with tokens := s.tokens.tail }

/-- Counts starts and ends of nodes. -/
def count (n : Nat) : Compose Unit := modify fun s => { s with events := s.events + n }

/-- The standard handles of tags. -/
def standardHandles : List (String × String) := [("!", "!"), ("!!", "tag:yaml.org,2002:")]

/-- The full text of a tag. -/
def fullTag (handle suffix : String) : Compose String := do
  if handle == "" then return suffix
  let s ← get
  match List.lookup handle (s.handles ++ standardHandles) with
  | some start => return start ++ suffix
  | none => fail

/-- Follows an alias. -/
def followAlias (name : String) : Compose Node := do
  let s ← get
  match (List.lookup name s.names).bind fun id => (s.anchored[id]?).join with
  | some (node, inner) => do
    set { s with jumps := s.jumps + inner + 1, events := s.events + 1 }
    return node
  | none => fail

/-- Gives a name to the node that starts here. -/
def openAnchor (name : String) : Compose Nat :=
  modifyGet fun s =>
    (s.anchored.size,
      { s with names := (name, s.anchored.size) :: s.names, anchored := s.anchored.push none })

/-- Composes a node, and completes the name it has. -/
def named (anchor : Option String) (x : Compose Node) : Compose Node := do
  match anchor with
  | none => x
  | some name => do
    let id ← openAnchor name
    let before := (← get).jumps
    let node ← x
    modify fun s => { s with
      anchored := s.anchored.setIfInBounds id (some (node, s.jumps - before)) }
    return node

/-- Reads the anchor and the tag of a node, in any order. -/
def properties : Compose (Option String × Option String) := do
  match ← peek with
  | some (.anchor name) => do
    drop
    match ← peek with
    | some (.tag handle suffix) => do
      drop
      return (some name, some (← fullTag handle suffix))
    | _ => return (some name, none)
  | some (.tag handle suffix) => do
    drop
    let tag ← fullTag handle suffix
    match ← peek with
    | some (.anchor name) => do
      drop
      return (some name, some tag)
    | _ => return (none, some tag)
  | _ => return (none, none)

/-- A part of a block mapping ends here. -/
def endsBlockPart : Option Token → Bool
  | some .key => true
  | some .value => true
  | some .blockEnd => true
  | _ => false

/-- A part of a flow mapping ends here. -/
def endsFlowPart : Option Token → Bool
  | some .value => true
  | some .comma => true
  | some .closeMap => true
  | _ => false

/-- A part of a pair in a flow sequence ends here. -/
def endsPairPart : Option Token → Bool
  | some .value => true
  | some .comma => true
  | some .closeList => true
  | _ => false

/-- The node without content, which counts as one. -/
def nothing : Compose Node := do
  count 1
  return Node.empty none

mutual

/-- Composes a node: in a block or not, and with or without entries that are not
indented. -/
def node (inBlock bareEntries : Bool) : Nat → Compose Node
  | 0 => fail
  | fuel + 1 => do
    match ← peek with
    | some (.alias name) => do
      drop
      followAlias name
    | _ => do
      let (anchor, tag) ← properties
      named anchor (content inBlock bareEntries tag (anchor.isSome || tag.isSome) fuel)

/-- Composes the content of a node after its anchor and tag. -/
def content (inBlock bareEntries : Bool) (tag : Option String) (mayBeEmpty : Bool) :
    Nat → Compose Node
  | 0 => fail
  | fuel + 1 => do
    match ← peek with
    | some (.scalar text isPlain) => do
      drop
      count 1
      return .scalar tag isPlain text
    | some .openList => do
      drop
      count 2
      return .sequence tag (← flowItems true fuel)
    | some .openMap => do
      drop
      count 2
      return .mapping tag (← flowPairs true fuel)
    | some .blockSequence =>
      if inBlock then do
        drop
        count 2
        return .sequence tag (← blockItems fuel)
      else otherwise tag mayBeEmpty
    | some .blockMapping =>
      if inBlock then do
        drop
        count 2
        return .mapping tag (← blockPairs fuel)
      else otherwise tag mayBeEmpty
    | some .entry =>
      if bareEntries then do
        count 2
        return .sequence tag (← bareItems fuel)
      else otherwise tag mayBeEmpty
    | _ => otherwise tag mayBeEmpty

/-- The node without content, if an anchor or a tag allows it. -/
def otherwise (tag : Option String) (mayBeEmpty : Bool) : Compose Node := do
  if mayBeEmpty then
    count 1
    return Node.empty tag
  else fail

/-- The items of a block sequence. -/
def blockItems : Nat → Compose (List Node)
  | 0 => fail
  | fuel + 1 => do
    match ← peek with
    | some .entry => do
      drop
      let item ←
        match ← peek with
        | some .entry => nothing
        | some .blockEnd => nothing
        | _ => node true false fuel
      return item :: (← blockItems fuel)
    | some .blockEnd => do
      drop
      return []
    | _ => fail

/-- The items of a block sequence that is not indented. -/
def bareItems : Nat → Compose (List Node)
  | 0 => fail
  | fuel + 1 => do
    match ← peek with
    | some .entry => do
      drop
      let next ← peek
      let item ←
        if next == some .entry || endsBlockPart next then nothing else node true false fuel
      return item :: (← bareItems fuel)
    | _ => return []

/-- The pairs of a block mapping. -/
def blockPairs : Nat → Compose (List (Node × Node))
  | 0 => fail
  | fuel + 1 => do
    match ← peek with
    | some .key => do
      drop
      let k ← if endsBlockPart (← peek) then nothing else node true true fuel
      let v ← blockValue fuel
      return (k, v) :: (← blockPairs fuel)
    | some .value => do
      let k ← nothing
      let v ← blockValue fuel
      return (k, v) :: (← blockPairs fuel)
    | some .blockEnd => do
      drop
      return []
    | _ => fail

/-- The value of a pair of a block mapping. -/
def blockValue : Nat → Compose Node
  | 0 => fail
  | fuel + 1 => do
    match ← peek with
    | some .value => do
      drop
      if endsBlockPart (← peek) then nothing else node true true fuel
    | _ => nothing

/-- The items of a flow sequence. -/
def flowItems (first : Bool) : Nat → Compose (List Node)
  | 0 => fail
  | fuel + 1 => do
    match ← peek with
    | some .closeList => do
      drop
      return []
    | next => do
      if !first then
        if next == some .comma then drop else fail
      match ← peek with
      | some .closeList => do
        drop
        return []
      | some .key => do
        drop
        count 2
        let pair ← flowPair fuel
        return .mapping none [pair] :: (← flowItems false fuel)
      | _ => do
        let item ← node false false fuel
        return item :: (← flowItems false fuel)

/-- A single pair in a flow sequence. -/
def flowPair : Nat → Compose (Node × Node)
  | 0 => fail
  | fuel + 1 => do
    let k ←
      if endsPairPart (← peek) then do
        drop
        nothing
      else node false false fuel
    match ← peek with
    | some .value => do
      drop
      let next ← peek
      let v ← if next == some .comma || next == some .closeList then nothing
        else node false false fuel
      return (k, v)
    | _ => return (k, ← nothing)

/-- The pairs of a flow mapping. -/
def flowPairs (first : Bool) : Nat → Compose (List (Node × Node))
  | 0 => fail
  | fuel + 1 => do
    match ← peek with
    | some .closeMap => do
      drop
      return []
    | next => do
      if !first then
        if next == some .comma then drop else fail
      match ← peek with
      | some .closeMap => do
        drop
        return []
      | some .key => do
        drop
        let k ← if endsFlowPart (← peek) then nothing else node false false fuel
        let v ← flowValue fuel
        return (k, v) :: (← flowPairs false fuel)
      | _ => do
        let k ← node false false fuel
        let v ← nothing
        return (k, v) :: (← flowPairs false fuel)

/-- The value of a pair of a flow mapping. -/
def flowValue : Nat → Compose Node
  | 0 => fail
  | fuel + 1 => do
    match ← peek with
    | some .value => do
      drop
      let next ← peek
      if next == some .comma || next == some .closeMap then nothing else node false false fuel
    | _ => nothing

end

/-- Reads the directives before a document: a version may stand there once, and
each handle once. -/
def directives : Nat → Bool → Compose Bool
  | 0, _ => fail
  | fuel + 1, versioned => do
    match ← peek with
    | some (.version major minor) => do
      if versioned || major != 1 || (minor != 1 && minor != 2) then fail
      drop
      let _ ← directives fuel true
      return true
    | some (.tagHandle handle start) => do
      let s ← get
      if (List.lookup handle s.handles).isSome then fail
      set { s with handles := (handle, start) :: s.handles }
      drop
      let _ ← directives fuel versioned
      return true
    | _ => return false

/-- Goes over the marks that end documents. -/
def dropEnds : Nat → Compose Unit
  | 0 => fail
  | fuel + 1 => do
    match ← peek with
    | some .documentEnd => do
      drop
      dropEnds fuel
    | _ => return ()

/-- A document has no content if one of these tokens comes first. -/
def endsDocument : Option Token → Bool
  | none => true
  | some (.version ..) => true
  | some (.tagHandle ..) => true
  | some .documentStart => true
  | some .documentEnd => true
  | _ => false

/-- Composes the only document of a text; none if there is no document. -/
def document (fuel : Nat) : Compose (Option Node) := do
  let found ← directives fuel false
  match ← peek with
  | none => if found then fail else return none
  | some .documentStart => do
    drop
    let root ← if endsDocument (← peek) then nothing else node true false fuel
    finish root
  | some _ => do
    if found then fail
    finish (← node true false fuel)
where
  finish (root : Node) : Compose (Option Node) := do
    dropEnds fuel
    match ← peek with
    | none => return some root
    | some _ => fail

end Compose

/-- The document of a text; the empty node if there is none. -/
def Node.read? (text : String) : Option Node := do
  let tokens ← Token.ofText? text
  let (root, s) ← (Compose.document (4 * tokens.length + 16)).run { tokens }
  let root := root.getD (Node.empty none)
  if s.jumps ≤ 100 * s.events && root.height ≤ heightLimit then some root else none

end PlaybookRunner.Yaml
