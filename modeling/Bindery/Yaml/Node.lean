import Bindery.Yaml.Tag
import Bindery.Yaml.TokenStream

/-!
# Nodes of a document

A document as a tree: scalars, sequences and mappings with their tags. `Graph.ofTokens` reads the
one document of a token stream by descent. A reference stands for the node whose anchor it names; it
may stand inside of that very node, which is then not finished, and is a `loop`. Collections are
numbered, so that it can be told where a loop leads.
-/

namespace Bindery.Yaml

/-- A node. -/
inductive Node where
  | scalar (tag : Tag) (script : Script)
  | sequence (number : Nat) (tag : Tag) (items : List Node)
  | mapping (number : Nat) (tag : Tag) (entries : List (Node × Node))
  | loop (number : Nat) (isMapping : Bool)
  deriving Repr

instance : Inhabited Node := ⟨.scalar .null (.text "")⟩

/-- The nodes of a document: the one at the top and, if there is a loop among them, all collections
by their numbers. -/
structure Graph where
  top : Node
  collections : Ledger Nat Node

namespace Node

/-- The state of reading nodes: the tokens to come and the defect behind them, the handles of tags,
the nodes that have anchors, how many collections were begun, and those that were finished. -/
structure Reader where
  tokens : List Token
  defect : Defect
  handles : Ledger String String
  anchors : Ledger String Node
  begun : Nat
  finished : Ledger Nat Node
  /-- Whether a reference led to a collection around it. -/
  hasLoop : Bool

/-- Reading of nodes that may fail. -/
abbrev Read := EStateM Defect Reader

/-- The next token. -/
def next : Read Token := do
  let s ← get
  match s.tokens with
  | [] => throw s.defect
  | t :: _ => return t

/-- Goes over the next token. -/
def drop : Read Unit := modify fun s => { s with tokens := s.tokens.drop 1 }

/-- Goes over a token that must come next. -/
def need (t : Token) : Read Unit := do
  if (← next) == t then drop else throw .malformed

/-- Goes over a token if it comes next; says whether it did. -/
def accept (t : Token) : Read Bool := do
  if (← next) == t then
    drop
    return true
  else return false

/-- The handles that need no directive. -/
def standardHandles : Ledger String String := [("!", "!"), ("!!", Tag.home)]

/-- A node that stands for nothing written. -/
def missing : Node := .scalar .null (.text "")

/-- What stands in front of a node: an anchor, and the address of its tag, if they are given. -/
structure Properties where
  anchor : Option String
  tag : Option String

/-- The address of a tag. -/
def tagAddress (handle : Option String) (suffix : String) : Read String := do
  match handle with
  | none => return suffix
  | some h =>
    match (← get).handles.get? h with
    | some address => return address ++ suffix
    | none => throw .malformed

/-- Reads the tag of a node, if there is one: what was written. -/
def takeTag? : Read (Option (Option String × String)) := do
  match ← next with
  | .tag handle suffix =>
    drop
    return some (handle, suffix)
  | _ => return none

/-- Reads the anchor of a node, if there is one. -/
def takeAnchor? : Read (Option String) := do
  match ← next with
  | .anchor name =>
    drop
    return some name
  | _ => return none

/-- Reads an anchor and a tag, in either order. -/
def takeProperties : Read Properties := do
  let (anchor, tag) ←
    match ← takeAnchor? with
    | some name => pure (some name, ← takeTag?)
    | none =>
      match ← takeTag? with
      | some tag => pure (← takeAnchor?, some tag)
      | none => pure (none, none)
  match tag with
  | none => return ⟨anchor, none⟩
  | some (handle, suffix) => return ⟨anchor, some (← tagAddress handle suffix)⟩

/-- The tag of a node whose kind has a tag of its own. An exclamation mark alone is no tag. -/
def Properties.tagOr (p : Properties) (tag : Tag) : Tag :=
  match p.tag with
  | none | some "!" => tag
  | some address => .ofAddress address

/-- Remembers a node under its anchor. -/
def remember (p : Properties) (node : Node) : Read Unit :=
  match p.anchor with
  | none => return
  | some name => modify fun s => { s with anchors := s.anchors.put name node }

/-- The number of a collection that is begun. -/
def begin : Read Nat :=
  modifyGet fun s => (s.begun, { s with begun := s.begun + 1 })

/-- Keeps a collection that is finished. -/
def finish (number : Nat) (node : Node) : Read Unit :=
  modify fun s => { s with finished := s.finished ++ [(number, node)] }

/-- The node that a reference stands for. -/
def referred (name : String) : Read Node := do
  match (← get).anchors.get? name with
  | none => throw .malformed
  | some node =>
    if let .loop .. := node then modify fun s => { s with hasLoop := true }
    return node

/-- No two nodes have one anchor. -/
def checkAnchor (p : Properties) : Read Unit := do
  match p.anchor with
  | none => return
  | some name => if (← get).anchors.contains name then throw .malformed

/-- What a scalar looks like. What is no text looks like nothing else. -/
def impliedTag : Script → Tag
  | .text s => .implied s
  | .ragged _ => .str

/-- The node of a scalar. -/
def ofScalar (p : Properties) (script : Script) (isPlain : Bool) : Node :=
  match p.tag with
  | none => .scalar (if isPlain then impliedTag script else .str) script
  | some "!" => .scalar (impliedTag script) script
  | some address => .scalar (.ofAddress address) script

/-- A node of which only properties are written. -/
def takeNothing (p : Properties) : Read Node := do
  if p.anchor.isNone && p.tag.isNone then throw .malformed
  checkAnchor p
  let node := ofScalar p (.text "") true
  remember p node
  return node

/-- Reads a collection; references to it from inside are loops. -/
def takeCollection (p : Properties) (isMapping : Bool) (read : Nat → Read Node) : Read Node := do
  checkAnchor p
  let number ← begin
  remember p (.loop number isMapping)
  let node ← read number
  finish number node
  remember p node
  return node

/-- Reads a sequence, given how its items are read. -/
def takeSequence (p : Properties) (items : Read (List Node)) : Read Node :=
  takeCollection p false fun number => return .sequence number (p.tagOr .seq) (← items)

/-- Reads a mapping, given how its entries are read. -/
def takeMapping (p : Properties) (entries : Read (List (Node × Node))) : Read Node :=
  takeCollection p true fun number => return .mapping number (p.tagOr .map) (← entries)

mutual
/-- Reads a node. In the block style it may be a block collection, and behind the mark of a key or a
value also a sequence that is not indented. -/
def take (block indentless : Bool) : Nat → Read Node
  | 0 => throw .malformed
  | limit + 1 => do
    if let .reference name ← next then
      drop
      return ← referred name
    let p ← takeProperties
    match ← next with
    | .scalar script isPlain => do
      drop
      checkAnchor p
      let node := ofScalar p script isPlain
      remember p node
      return node
    | .blockEntry =>
      if indentless then takeSequence p (takeIndentless limit)
      else takeNothing p
    | .flowSequenceStart => takeSequence p do
        drop
        takeFlowItems true limit
    | .flowMappingStart => takeMapping p do
        drop
        takeFlowEntries true limit
    | .sequenceStart =>
      if block then takeSequence p do
        drop
        takeItems limit
      else takeNothing p
    | .mappingStart =>
      -- inside of flow collections the block style has no place
      if block then takeMapping p do
        drop
        takeEntries limit
      else takeNothing p
    | _ => takeNothing p

/-- Reads a node unless one of some tokens comes next. -/
def takeUnless (stops : List Token) (block indentless : Bool) : Nat → Read Node
  | 0 => throw .malformed
  | limit + 1 => do
    if stops.contains (← next) then return missing
    take block indentless limit

/-- Reads the items of a block sequence. -/
def takeItems : Nat → Read (List Node)
  | 0 => throw .malformed
  | limit + 1 => do
    if ← accept .blockEntry then
      let item ← takeUnless [.blockEntry, .blockEnd] true false limit
      return item :: (← takeItems limit)
    else
      need .blockEnd
      return []

/-- Reads the items of a sequence that is not indented. -/
def takeIndentless : Nat → Read (List Node)
  | 0 => throw .malformed
  | limit + 1 => do
    if ← accept .blockEntry then
      let item ← takeUnless [.blockEntry, .key, .value, .blockEnd] true false limit
      return item :: (← takeIndentless limit)
    else return []

/-- Reads the entries of a block mapping. -/
def takeEntries : Nat → Read (List (Node × Node))
  | 0 => throw .malformed
  | limit + 1 => do
    if ← accept .key then
      let key ← takeUnless [.key, .value, .blockEnd] true true limit
      let value ←
        if ← accept .value then takeUnless [.key, .value, .blockEnd] true true limit
        else pure missing
      return (key, value) :: (← takeEntries limit)
    else
      need .blockEnd
      return []

/-- Reads the items of a flow sequence; a key without braces makes a mapping of one entry. -/
def takeFlowItems (first : Bool) : Nat → Read (List Node)
  | 0 => throw .malformed
  | limit + 1 => do
    if ← accept .flowSequenceEnd then return []
    if !first then
      need .flowEntry
    if ← accept .key then
      let pair ← takeMapping ⟨none, none⟩ do
        let key ← takeUnless [.value, .flowEntry, .flowSequenceEnd] false false limit
        let value ←
          if ← accept .value then takeUnless [.flowEntry, .flowSequenceEnd] false false limit
          else pure missing
        return [(key, value)]
      return pair :: (← takeFlowItems false limit)
    else if ← accept .flowSequenceEnd then return []
    else
      let item ← take false false limit
      return item :: (← takeFlowItems false limit)

/-- Reads the entries of a flow mapping. -/
def takeFlowEntries (first : Bool) : Nat → Read (List (Node × Node))
  | 0 => throw .malformed
  | limit + 1 => do
    if ← accept .flowMappingEnd then return []
    if !first then
      need .flowEntry
    if ← accept .key then
      let key ← takeUnless [.value, .flowEntry, .flowMappingEnd] false false limit
      let value ←
        if ← accept .value then takeUnless [.flowEntry, .flowMappingEnd] false false limit
        else pure missing
      return (key, value) :: (← takeFlowEntries false limit)
    else if ← accept .flowMappingEnd then return []
    else
      let key ← take false false limit
      return (key, missing) :: (← takeFlowEntries false limit)
end

/-! ## Documents -/

/-- Reads the directives in front of a document. -/
def takeDirectives : Nat → Bool → Read Unit
  | 0, _ => throw .malformed
  | limit + 1, seenVersion => do
    match ← next with
    | .directive d => do
      drop
      match d with
      | .version major =>
        if seenVersion || major ≠ 1 then throw .malformed
        takeDirectives limit true
      | .tagHandle handle address =>
        if (← get).handles.contains handle then throw .malformed
        modify fun s => { s with handles := s.handles.put handle address }
        takeDirectives limit seenVersion
      | .other => takeDirectives limit seenVersion
    | _ =>
      modify fun s => { s with
        handles := standardHandles.foldl
          (fun all (handle, address) =>
            if all.contains handle then all else all.put handle address) s.handles }

/-- Goes over the marks that end a document. -/
def dropEnds : Nat → Read Unit
  | 0 => throw .malformed
  | limit + 1 => do
    if ← accept .documentEnd then dropEnds limit

/-- Whether a token can only stand outside of a document. -/
def isOutside : Token → Bool
  | .directive _ | .documentStart | .documentEnd | .streamEnd => true
  | _ => false

/-- Reads the document of the stream, if there is one. Nothing but marks may follow it. -/
def takeDocument (limit : Nat) : Read (Option Node) := do
  let t ← next
  let node? ←
    match t with
    | .streamEnd => pure none
    | .directive _ | .documentStart => do
      modify fun s => { s with handles := [] }
      takeDirectives limit false
      need .documentStart
      if isOutside (← next) then pure (some missing)
      else some <$> take true false limit
    | _ => some <$> take true false limit
  if node?.isSome then
    dropEnds limit
    need .streamEnd
  return node?

end Node

/-- The one document in a token stream; nothing for an empty stream. -/
def Graph.ofTokens (stream : TokenStream) : Except Defect (Option Graph) :=
  let reader : Node.Reader :=
    { tokens := stream.tokens, defect := stream.defect.getD .malformed,
      handles := Node.standardHandles, anchors := [], begun := 0, finished := [], hasLoop := false }
  match (Node.takeDocument (4 * stream.tokens.length + 8)).run reader with
  | .ok none _ => .ok none
  | .ok (some top) s => .ok (some ⟨top, if s.hasLoop then s.finished else []⟩)
  | .error defect _ => .error defect

end Bindery.Yaml
