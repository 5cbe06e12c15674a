import Bindery.Ledger
import Bindery.Yaml.Source
import Bindery.Yaml.Token

/-!
# The state of reading tokens

Where the reading stands, how deep it is in flow collections and in indentation, and which tokens
were read. A scalar or a collection may turn out to be the key of a mapping when a colon follows it
on the same line, so the place of each such token is remembered, one for each depth of flow
collections, until the colon comes or can no longer come.

The text may be cut short by a fault, which is met as soon as a character behind it is asked for
(`peekAt`). Whoever goes over characters asks for the one that comes next.
-/

namespace Bindery.Yaml

/-- A token that may turn out to be a key; a required one must. -/
structure PendingKey where
  token : Nat
  required : Bool
  index : Nat
  line : Nat
  column : Nat
  deriving Repr

/-- The state of reading tokens. -/
structure Lexer where
  rest : List Char
  /-- What is met behind the rest, unless it is the end of the text. -/
  fault? : Option Defect
  index : Nat
  line : Nat
  column : Nat
  /-- How many flow collections are open. -/
  depth : Nat
  /-- The column of the innermost block collection, and those of the ones around it. -/
  indent : Int
  outer : List Int
  /-- Whether a key may start here. -/
  keyAllowed : Bool
  pending : Ledger Nat PendingKey
  tokens : Array Token
  /-- How many of the tokens could not become keys any more when the last token was begun. -/
  settled : Nat
  deriving Repr

/-- Reading that may fail. -/
abbrev Lex := EStateM Defect Lexer

/-- How far a key may be from its colon. -/
def keyLimit : Nat := 1024

namespace Lexer

/-- The state before a text. -/
def start (source : Source) : Lexer :=
  { rest := source.text, fault? := source.fault?, index := 0, line := 0, column := 0, depth := 0,
    indent := -1, outer := [], keyAllowed := true, pending := [], tokens := #[], settled := 0 }

/-- The state after one character. -/
def step (s : Lexer) : Lexer :=
  match s.rest with
  | [] => s
  | c :: cs =>
    if isBreak c then { s with rest := cs, index := s.index + 1, line := s.line + 1, column := 0 }
    else if c = byteOrderMark then { s with rest := cs, index := s.index + 1 }
    else { s with rest := cs, index := s.index + 1, column := s.column + 1 }

/-- The state after `n` characters. -/
def skip : Nat → Lexer → Lexer
  | 0, s => s
  | n + 1, s => skip n s.step

end Lexer

/-- The reading breaks a rule. -/
def malformed {α : Type} : Lex α := throw .malformed

/-- The character at a distance. -/
def peekAt (n : Nat) : Lex Char := do
  let s ← get
  match s.rest[n]?, s.fault? with
  | some c, _ => return c
  | none, some fault => throw fault
  | none, none => return ending

/-- The next character. -/
def peek : Lex Char := peekAt 0

/-- Goes over `n` characters. -/
def skip (n : Nat) : Lex Unit := do
  discard (peekAt n)
  modify (Lexer.skip n)

/-- Takes the characters as long as they are of a class. -/
def takeWhile (p : Char → Bool) : Lex (List Char) := do
  let cs := (← get).rest.takeWhile p
  skip cs.length
  return cs

/-- Goes over spaces. -/
def skipSpaces : Lex Unit := discard (takeWhile (· == ' '))

/-- The next character must be of a class. -/
def expect (p : Char → Bool) : Lex Unit := do
  if !p (← peek) then malformed

/-- Goes over the end of a line, if it is here. The line and paragraph separators stand for
themselves, all else for a line feed. -/
def takeBreak : Lex (List Char) := do
  let c ← peek
  if c == '\n' || c == '\x85' then
    skip 1
    return ['\n']
  else if isBreak c then
    skip 1
    return [c]
  else return []

/-- Whether three equal characters and a gap come next, as in a document mark. -/
def atMarkOf (c : Char) : Lex Bool := do
  discard (peekAt 2)
  if (← get).rest.take 3 == [c, c, c] then return isGap (← peekAt 3)
  else return false

/-- Whether a document mark stands here. -/
def atMark : Lex Bool := do
  if ← atMarkOf '-' then return true
  else atMarkOf '.'

/-- Goes over the rest of a line on which nothing but a comment may follow. -/
def finishLine : Lex Unit := do
  skipSpaces
  if (← peek) == '#' then discard (takeWhile (!endsLine ·))
  expect endsLine
  discard takeBreak

/-! ## Tokens, keys and indentation -/

def push (t : Token) : Lex Unit :=
  modify fun s => { s with tokens := s.tokens.push t }

/-- Puts tokens in front of the token with the given number. -/
def insertAt (n : Nat) (ts : Array Token) : Lex Unit :=
  modify fun s =>
    { s with tokens := s.tokens.extract 0 n ++ ts ++ s.tokens.extract n s.tokens.size }

def allowKey (allowed : Bool) : Lex Unit :=
  modify fun s => { s with keyAllowed := allowed }

/-- Forgets the pending keys that are on an earlier line or too far away. -/
def dropStaleKeys : Lex Unit := do
  let s ← get
  let isStale (k : PendingKey) := k.line != s.line || keyLimit < s.index - k.index
  if s.pending.any fun (_, k) => isStale k && k.required then malformed
  set { s with pending := s.pending.filter fun (_, k) => !isStale k }

/-- Notes how many tokens can no longer become keys. -/
def settle : Lex Unit := do
  dropStaleKeys
  modify fun s => { s with
    settled := s.pending.foldl (fun n (_, k) => min n k.token) s.tokens.size }

/-- Forgets the pending key at this depth. -/
def dropKey : Lex Unit := do
  let s ← get
  match s.pending.get? s.depth with
  | none => pure ()
  | some k =>
    if k.required then malformed
    set { s with pending := s.pending.filter (·.1 != s.depth) }

/-- Remembers that the next token may be a key. It has to be one if it starts a line of a block
collection. -/
def noteKey : Lex Unit := do
  let s ← get
  if s.keyAllowed then
    let required := s.depth == 0 && s.indent == s.column
    -- a key that was pending at this depth has lost its chance
    dropKey
    modify fun s => { s with
      pending := s.pending.put s.depth ⟨s.tokens.size, required, s.index, s.line, s.column⟩ }

/-- Takes columns off the stack until one is at most `column`: how many were taken, and what is
left. -/
def unwound (column : Int) : Int → List Int → Nat × Int × List Int
  | indent, [] => (0, indent, [])
  | indent, next :: outer =>
    if indent ≤ column then (0, indent, next :: outer)
    else
      let (n, rest) := unwound column next outer
      (n + 1, rest)

/-- Ends the block collections that are indented beyond a column. -/
def unwindTo (column : Int) : Lex Unit :=
  modify fun s =>
    if s.depth ≠ 0 then s
    else
      let (n, indent, outer) := unwound column s.indent s.outer
      { s with indent := indent, outer := outer, tokens := s.tokens ++ Array.replicate n .blockEnd }

/-- Starts a block collection at a column beyond the innermost one; says whether it did. -/
def indentTo (column : Int) : Lex Bool := do
  let s ← get
  if s.indent < column then
    set { s with indent := column, outer := s.indent :: s.outer }
    return true
  else return false

end Bindery.Yaml
