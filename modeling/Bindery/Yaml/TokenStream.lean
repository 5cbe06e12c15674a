import Bindery.Yaml.Lexeme

/-!
# The tokens of a text

`TokenStream.ofSource` reads all tokens of a text. Where the reading of a token fails, the tokens
before it still count, as far as it was settled by then whether they are keys.
-/

namespace Bindery.Yaml

/-- How many characters of blanks and comments come next, and whether a line ends among them. -/
def gap : Bool → List Char → Nat × Bool
  | _, [] => (0, false)
  | inComment, c :: cs =>
    if isBreak c then ((gap false cs).1 + 1, true)
    else if inComment then
      let (n, breaks) := gap true cs
      (n + 1, breaks)
    else if c == ' ' then
      let (n, breaks) := gap false cs
      (n + 1, breaks)
    else if c == '#' then
      let (n, breaks) := gap true cs
      (n + 1, breaks)
    else (0, false)

/-- Goes to the next token. Outside of flow collections a key may start on a new line. -/
def skipToToken : Lex Unit := do
  if (← get).index == 0 && (← peek) == byteOrderMark then skip 1
  let (n, breaks) := gap false (← get).rest
  skip n
  if breaks && (← get).depth == 0 then allowKey true

/-- A token of `n` characters. -/
def pushMark (n : Nat) (t : Token) : Lex Unit := do
  skip n
  push t

/-- Ends all block collections before a token that stands for itself. -/
def closeBlocks : Lex Unit := do
  unwindTo (-1)
  dropKey
  allowKey false

/-- The start of a flow collection, which may be a key. -/
def openFlow (t : Token) : Lex Unit := do
  noteKey
  modify fun s => { s with depth := s.depth + 1 }
  allowKey true
  pushMark 1 t

/-- The end of a flow collection. -/
def closeFlow (t : Token) : Lex Unit := do
  dropKey
  modify fun s => { s with depth := s.depth - 1 }
  allowKey false
  pushMark 1 t

/-- The mark of an item or of a key in a block collection, which it may start. -/
def openEntry (collection t : Token) : Lex Unit := do
  let s ← get
  if s.depth == 0 then
    if !s.keyAllowed then malformed
    if ← indentTo s.column then push collection
  allowKey (t == .blockEntry || s.depth == 0)
  dropKey
  pushMark 1 t

/-- The colon before a value: it turns the pending key into one, if there is one. -/
def takeValueMark : Lex Unit := do
  let s ← get
  match s.pending.get? s.depth with
  | some k => do
    set { s with pending := s.pending.filter (·.1 != s.depth) }
    -- the mapping starts where its first key did, which may be some tokens back
    let starts ← if s.depth == 0 then indentTo k.column else pure false
    insertAt k.token (if starts then #[.mappingStart, .key] else #[.key])
    allowKey false
  | none => do
    if s.depth == 0 then
      if !s.keyAllowed then malformed
      if ← indentTo s.column then push .mappingStart
    allowKey (s.depth == 0)
    dropKey
  pushMark 1 .value

/-- A token that may be a key and after which none may start. -/
def pushKeyLike (take : Lex Token) : Lex Unit := do
  noteKey
  allowKey false
  push (← take)

/-- A block, after which a key may start. -/
def pushBlock (folded : Bool) : Lex Unit := do
  allowKey true
  dropKey
  push (← takeBlock folded)

/-- Whether a gap follows the character here. -/
def beforeGap : Lex Bool := return isGap (← peekAt 1)

/-- Whether the character here is one that marks what follows it: in a flow collection always, and
else before a gap. -/
def isMarking (inFlow : Bool) : Lex Bool := do
  if inFlow then return true
  else beforeGap

/-- Whether a plain scalar starts here. -/
def startsPlain (inFlow : Bool) : Lex Bool := do
  let c ← peek
  if !(isGap c || isIndicator c) then return true
  else if ← beforeGap then return false
  else return c == '-' || (!inFlow && (c == '?' || c == ':'))

/-- What kind of token starts with a character here. -/
inductive Opening where
  | directive
  | documentStart
  | documentEnd
  | blockEntry
  | key
  | value
  | other
  deriving DecidableEq, Repr

/-- Looks behind a character that is not the start of one kind of token alone. No more characters
are asked for than are needed to tell. -/
def opening (c : Char) : Lex Opening := do
  let s ← get
  let inFlow := s.depth != 0
  if c == '%' && s.column == 0 then return .directive
  else if c == '-' then
    if s.column == 0 then
      if ← atMarkOf '-' then return .documentStart
    if ← beforeGap then return .blockEntry
    else return .other
  else if c == '.' && s.column == 0 then
    if ← atMarkOf '.' then return .documentEnd
    else return .other
  else if c == '?' then
    if ← isMarking inFlow then return .key
    else return .other
  else if c == ':' then
    if ← isMarking inFlow then return .value
    else return .other
  else return .other

/-- Reads a token by its first character. -/
def takeTokenFrom (c : Char) : Lex Unit := do
  let inFlow := (← get).depth != 0
  match ← opening c with
  | .directive => do
    closeBlocks
    push (← takeDirective)
  | .documentStart => do
    closeBlocks
    pushMark 3 .documentStart
  | .documentEnd => do
    closeBlocks
    pushMark 3 .documentEnd
  | .blockEntry => openEntry .sequenceStart .blockEntry
  | .key => openEntry .mappingStart .key
  | .value => takeValueMark
  | .other =>
    if c == '[' then openFlow .flowSequenceStart
    else if c == '\x7b' then openFlow .flowMappingStart
    else if c == ']' then closeFlow .flowSequenceEnd
    else if c == '\x7d' then closeFlow .flowMappingEnd
    else if c == ',' then do
      allowKey true
      dropKey
      pushMark 1 .flowEntry
    else if c == '*' then pushKeyLike do return .reference (← takeAnchorName)
    else if c == '&' then pushKeyLike do return .anchor (← takeAnchorName)
    else if c == '!' then pushKeyLike takeTag
    else if c == '|' && !inFlow then pushBlock false
    else if c == '>' && !inFlow then pushBlock true
    else if c == '\'' then pushKeyLike (takeQuoted false)
    else if c == '"' then pushKeyLike (takeQuoted true)
    else if ← startsPlain inFlow then pushKeyLike takePlain
    else malformed

/-- Reads one token, together with the ends of the block collections before it; says whether it was
the last. -/
def takeToken : Lex Bool := do
  settle
  skipToToken
  dropStaleKeys
  unwindTo (← get).column
  let c ← peek
  if c == ending then
    closeBlocks
    push .streamEnd
    return true
  takeTokenFrom c
  return false

/-- Reads the tokens up to the end, each of which takes at least one character. -/
def takeTokens : Nat → Lex Unit
  | 0 => malformed
  | limit + 1 => do
    if ← takeToken then return
    takeTokens limit

/-- The tokens of a text, and the defect that the reading ended with, if it did. -/
structure TokenStream where
  tokens : List Token
  defect : Option Defect
  deriving Repr

namespace TokenStream

/-- The tokens of a text, as far as it can be read. -/
def ofSource (source : Source) : TokenStream :=
  match (takeTokens (source.text.length + 2)).run (.start source) with
  | .ok _ s => ⟨s.tokens.toList, none⟩
  | .error defect s => ⟨s.tokens.toList.take s.settled, some defect⟩

end TokenStream

end Bindery.Yaml
