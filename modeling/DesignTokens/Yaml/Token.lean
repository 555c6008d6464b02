import DesignTokens.Yaml.ScalarText
import DesignTokens.Yaml.Tag

/-
  This file defines the tokens of YAML texts.

  Key definitions include:
    * `Yaml.Token`
    * `Yaml.Scanner`
    * `Yaml.Scanner.fetchToken?`
    * `Yaml.Token.ofChars?`

  Block collections are marked by tokens where their indentation
  begins and ends.  A key without a question mark is recognized
  at the colon after it; the tokens of the key and of a mapping
  that begins with it are then put before it.
-/

------------------------------------------------------------
-- Tokens
------------------------------------------------------------

namespace DesignTokens

namespace Yaml

/- How a scalar is written. -/
inductive Style where
| plain
| quoted
| literal
| folded
deriving DecidableEq, Repr

/- A mark, a property or a scalar. -/
inductive Token where
| version (major minor : List Char)
| tagHandle (handle : String) (start : Tag)
| documentStart
| documentEnd
| blockSequenceStart
| blockMappingStart
| blockEnd
| flowSequenceStart
| flowSequenceEnd
| flowMappingStart
| flowMappingEnd
| blockEntry
| flowEntry
| key
| value
| aliasTo (name : String)
| anchor (name : String)
| tag (handle : String) (suffix : Tag)
| scalar (style : Style) (text : String)
deriving DecidableEq, Repr

end Yaml

end DesignTokens

------------------------------------------------------------
-- The State of Scanning
------------------------------------------------------------

namespace DesignTokens

namespace Yaml

/-
  A token that may turn out to be a key: where it stands, how
  many tokens are before it, and whether it has to be one.
-/
structure KeyCandidate where
  required : Bool
  tokensBefore : Nat
  offset : Nat
  line : Nat
  column : Nat

/-
  What has been scanned.  The columns of the open blocks and the
  key candidates of the open flow collections are stacks; the
  outermost key candidate belongs to no flow collection.
-/
structure Scanner where
  cursor : Cursor
  tokens : Array Token
  indent : Int
  indents : List Int
  candidate : Option KeyCandidate
  candidates : List (Option KeyCandidate)
  keyAllowed : Bool

namespace Scanner

/- Before the first token. -/
def start (cs : List Char) : Scanner :=
  { cursor := Cursor.start cs
    tokens := #[]
    indent := -1
    indents := []
    candidate := none
    candidates := []
    keyAllowed := true }

/- Inside a flow collection. -/
def inFlow (s : Scanner) : Bool :=
  !s.candidates.isEmpty

/- Add a token at the end. -/
def push
    (s : Scanner)
    (token : Token) : Scanner :=
  { s with tokens := s.tokens.push token }

/- Move the cursor. -/
def moveTo
    (s : Scanner)
    (cursor : Cursor) : Scanner :=
  { s with cursor := cursor }

/- Pass some characters and add their token. -/
def pushMark
    (s : Scanner)
    (n : Nat)
    (token : Token) : Scanner :=
  (s.moveTo (s.cursor.skip n)).push token

/- Set whether the next token may be a key. -/
def allowKey
    (s : Scanner)
    (allowed : Bool) : Scanner :=
  { s with keyAllowed := allowed }

end Scanner

end Yaml

end DesignTokens

------------------------------------------------------------
-- Keys and Indentation
------------------------------------------------------------

namespace DesignTokens

namespace Yaml

namespace Scanner

/- Give up the key candidate; a required key is refused. -/
def dropCandidate? (s : Scanner) : Option Scanner :=
  if s.candidate.any KeyCandidate.required then
    none
  else
    some { s with candidate := none }

/- Make the token at the cursor a key candidate, if it may be. -/
def markCandidate? (s : Scanner) : Option Scanner :=
  if s.keyAllowed then do
    let s ← s.dropCandidate?
    return { s with
      candidate := some {
        required := !s.inFlow && s.indent = s.cursor.column
        tokensBefore := s.tokens.size
        offset := s.cursor.offset
        line := s.cursor.line
        column := s.cursor.column } }
  else
    some s

/- A key ends on its line and has no more than 1024 bytes. -/
def isStale
    (cur : Cursor)
    (c : KeyCandidate) : Bool :=
  c.line < cur.line || c.offset + 1024 < cur.offset

/- Give up a candidate that cannot be a key any more. -/
def refresh?
    (cur : Cursor) :
    Option KeyCandidate → Option (Option KeyCandidate)
| none => some none
| some c =>
    if isStale cur c then
      if c.required then none else some none
    else
      some (some c)

/- Give up all candidates that cannot be keys any more. -/
def dropStale? (s : Scanner) : Option Scanner := do
  let candidate ← refresh? s.cursor s.candidate
  let candidates ← s.candidates.mapM (refresh? s.cursor)
  return { s with candidate := candidate, candidates := candidates }

/- Open a block at a column; its token goes after some others. -/
def openBlock
    (s : Scanner)
    (column : Nat)
    (position : Nat)
    (token : Token) : Scanner :=
  if !s.inFlow && s.indent < column then
    { s with
      tokens := s.tokens.insertIdxIfInBounds position token
      indent := column
      indents := s.indent :: s.indents }
  else
    s

/- Close the blocks to the right of a column. -/
def closeTo
    (column : Int) :
    List Int → Scanner → Scanner
| [], s => s
| outer :: indents, s =>
    if column < s.indent then
      closeTo column indents
        { s.push .blockEnd with indent := outer, indents := indents }
    else
      s

/- Close the blocks to the right of a column, outside flows. -/
def closeBlocks
    (s : Scanner)
    (column : Int) : Scanner :=
  if s.inFlow then s else closeTo column s.indents s

/- Open a flow collection. -/
def openFlow (s : Scanner) : Scanner :=
  { s with
    candidate := none
    candidates := s.candidate :: s.candidates }

/- Close a flow collection, if one is open. -/
def closeFlow (s : Scanner) : Scanner :=
  match s.candidates with
  | [] => s
  | c :: cs => { s with candidate := c, candidates := cs }

end Scanner

end Yaml

end DesignTokens

------------------------------------------------------------
-- Names and Directives
------------------------------------------------------------

namespace DesignTokens

namespace Yaml

/- Read the name of an anchor or alias after its indicator. -/
def takeName?
    (cs : List Char) : Option (String × List Char) :=
  let name := cs.takeWhile isWordChar
  let rest := cs.drop name.length
  let ends :=
    startsBlank rest
      || rest.head?.any (fun c => "?:,]\x7d%@\x60".toList.contains c)
  if name = [] || !ends then
    none
  else
    some (String.ofList name, rest)

/- Read a part of a version number. -/
def takeVersionPart?
    (cs : List Char) : Option (List Char × List Char) :=
  let ds := cs.takeWhile Decimal.isDigit
  if ds = [] || 9 < ds.length then
    none
  else
    some (ds, cs.drop ds.length)

/- Read a version number. -/
def takeVersion?
    (cs : List Char) : Option (Token × List Char) := do
  let (major, rest) ← takeVersionPart? (cs.dropWhile isBlank)
  match rest with
  | '.' :: rest => do
      let (minor, rest) ← takeVersionPart? rest
      return (.version major minor, rest)
  | _ => none

/- Read a directive whose percent sign is at the cursor. -/
def takeDirective?
    (cur : Cursor) : Option (Token × Cursor) := do
  let cs := cur.rest.drop 1
  let name := cs.takeWhile isWordChar
  let rest := cs.drop name.length
  let (token, rest) ←
    if !startsBlank rest then
      none
    else if name = "YAML".toList then
      takeVersion? rest
    else if name = "TAG".toList then
      (takeTagHandle? rest).map fun (handle, start, rest) =>
        (.tagHandle handle start, rest)
    else
      none
  let cur ← (cur.skipTo rest).endLine?
  return (token, cur)

end Yaml

end DesignTokens

------------------------------------------------------------
-- Single Tokens
------------------------------------------------------------

namespace DesignTokens

namespace Yaml

namespace Scanner

/-
  Pass spaces, comments and line breaks before a token.  Tabs
  are passed where no key may start, and a byte order mark is
  passed at the front of every line.
-/
def skipSpace : Nat → Scanner → Scanner
| 0, s => s
| steps + 1, s =>
    let cur :=
      if s.cursor.column = 0 && s.cursor.rest.head? = some '\uFEFF'
      then s.cursor.skip 1
      else s.cursor
    let tabs := s.inFlow || !s.keyAllowed
    let cur :=
      (cur.skipWhile (fun c => c = ' ' || (tabs && c = '\t'))).skipComment
    if cur.rest ≠ [] && startsBreak cur.rest then
      skipSpace steps
        { s with
          cursor := cur.takeBreak.2
          keyAllowed := s.keyAllowed || !s.inFlow }
    else
      s.moveTo cur

/- Scan a directive, or a mark that begins or ends a document. -/
def closeDocument? (s : Scanner) : Option Scanner := do
  let s ← (s.closeBlocks (-1)).dropCandidate?
  return s.allowKey false

/- Scan the dash of a block sequence. -/
def fetchEntry? (s : Scanner) : Option Scanner := do
  if !s.inFlow && !s.keyAllowed then
    none
  else
    let column := s.cursor.column
    let s := s.openBlock column s.tokens.size .blockSequenceStart
    let s ← s.dropCandidate?
    return (s.allowKey true).pushMark 1 .blockEntry

/- Scan a question mark before a key. -/
def fetchKey? (s : Scanner) : Option Scanner := do
  if !s.inFlow && !s.keyAllowed then
    none
  else
    let column := s.cursor.column
    let s := s.openBlock column s.tokens.size .blockMappingStart
    let s ← s.dropCandidate?
    return (s.allowKey (!s.inFlow)).pushMark 1 .key

/- Scan the colon before a value. -/
def fetchValue? (s : Scanner) : Option Scanner :=
  match s.candidate with
  | some c =>
      let s :=
        { s with
          tokens := s.tokens.insertIdxIfInBounds c.tokensBefore .key
          candidate := none }
      let s := s.openBlock c.column c.tokensBefore .blockMappingStart
      some ((s.allowKey false).pushMark 1 .value)
  | none =>
      if !s.inFlow && !s.keyAllowed then
        none
      else
        let column := s.cursor.column
        let s := s.openBlock column s.tokens.size .blockMappingStart
        some ((s.allowKey (!s.inFlow)).pushMark 1 .value)

/- Scan the opening bracket of a flow collection. -/
def fetchFlowStart?
    (token : Token)
    (s : Scanner) : Option Scanner := do
  let s ← s.markCandidate?
  return (s.openFlow.allowKey true).pushMark 1 token

/- Scan the closing bracket of a flow collection. -/
def fetchFlowEnd?
    (token : Token)
    (s : Scanner) : Option Scanner := do
  let s ← s.dropCandidate?
  return (s.closeFlow.allowKey false).pushMark 1 token

/- Scan the comma of a flow collection. -/
def fetchFlowEntry? (s : Scanner) : Option Scanner := do
  let s ← s.dropCandidate?
  return (s.allowKey true).pushMark 1 .flowEntry

/- Scan an anchor or an alias. -/
def fetchName?
    (token : String → Token)
    (s : Scanner) : Option Scanner := do
  let s ← s.markCandidate?
  let (name, rest) ← takeName? (s.cursor.rest.drop 1)
  return ((s.allowKey false).moveTo (s.cursor.skipTo rest)).push
    (token name)

/- Scan a tag. -/
def fetchTag? (s : Scanner) : Option Scanner := do
  let s ← s.markCandidate?
  let (handle, suffix, rest) ← takeTag? s.inFlow s.cursor.rest
  return ((s.allowKey false).moveTo (s.cursor.skipTo rest)).push
    (.tag handle suffix)

/- Scan a literal or folded scalar. -/
def fetchBlock?
    (folded : Bool)
    (s : Scanner) : Option Scanner := do
  let s ← s.dropCandidate?
  let (text, cur) ← takeBlock? folded s.indent s.cursor
  let style := if folded then Style.folded else Style.literal
  return ((s.allowKey true).moveTo cur).push
    (.scalar style (String.ofList text))

/- Scan a quoted scalar. -/
def fetchQuoted?
    (single : Bool)
    (s : Scanner) : Option Scanner := do
  let s ← s.markCandidate?
  let (text, cur) ← takeQuoted? single s.cursor
  return ((s.allowKey false).moveTo cur).push
    (.scalar .quoted (String.ofList text))

/- Scan a plain scalar; a key may start on a line after it. -/
def fetchPlain? (s : Scanner) : Option Scanner := do
  let s ← s.markCandidate?
  let (text, lineEnded, cur) ←
    takePlain? s.inFlow (s.indent + 1).toNat s.cursor
  return ((s.allowKey lineEnded).moveTo cur).push
    (.scalar .plain (String.ofList text))

/- Characters that start no plain scalar. -/
def isIndicator (c : Char) : Bool :=
  "-?:,[]\x7b\x7d#&*!|>'\"%@\x60".toList.contains c

/- Scan the token that starts with a character. -/
def fetchToken?
    (s : Scanner)
    (c : Char)
    (cs : List Char) : Option Scanner :=
  let parted := startsBlank cs
  if c = '%' && s.cursor.column = 0 then do
    let s ← s.closeDocument?
    let (token, cur) ← takeDirective? s.cursor
    return (s.moveTo cur).push token
  else if s.cursor.atMark then do
    let s ← s.closeDocument?
    return s.pushMark 3
      (if c = '-' then .documentStart else .documentEnd)
  else if c = '[' then s.fetchFlowStart? .flowSequenceStart
  else if c = '\x7b' then s.fetchFlowStart? .flowMappingStart
  else if c = ']' then s.fetchFlowEnd? .flowSequenceEnd
  else if c = '\x7d' then s.fetchFlowEnd? .flowMappingEnd
  else if c = ',' then s.fetchFlowEntry?
  else if c = '-' && parted then s.fetchEntry?
  else if c = '?' && (s.inFlow || parted) then s.fetchKey?
  else if c = ':' && (s.inFlow || parted) then s.fetchValue?
  else if c = '*' then s.fetchName? .aliasTo
  else if c = '&' then s.fetchName? .anchor
  else if c = '!' then s.fetchTag?
  else if c = '|' && !s.inFlow then s.fetchBlock? false
  else if c = '>' && !s.inFlow then s.fetchBlock? true
  else if c = '\'' then s.fetchQuoted? true
  else if c = '"' then s.fetchQuoted? false
  else if c = '-' || ((c = '?' || c = ':') && !s.inFlow) then
    s.fetchPlain?
  else if isBlank c || isIndicator c then none
  else s.fetchPlain?

/- Pass what stands before a token, and close blocks there. -/
def advance? (s : Scanner) : Option Scanner := do
  let s := s.skipSpace (s.cursor.rest.length + 1)
  let s ← s.dropStale?
  return s.closeBlocks s.cursor.column

/- Close all blocks at the end of the text. -/
def finish? (s : Scanner) : Option Scanner :=
  (s.closeBlocks (-1)).dropCandidate?

/- Scan the tokens that are left; each one takes a character. -/
def run? : Nat → Scanner → Option Scanner
| 0, _ => none
| steps + 1, s =>
    match s.advance? with
    | none => none
    | some s =>
        match s.cursor.rest with
        | [] => s.finish?
        | c :: cs =>
            match s.fetchToken? c cs with
            | none => none
            | some s => run? steps s

end Scanner

/- The tokens of a text. -/
def Token.ofChars? (cs : List Char) : Option (List Token) :=
  if cs.all isAllowed then
    ((Scanner.start cs).run? (cs.length + 1)).map
      (·.tokens.toList)
  else
    none

end Yaml

end DesignTokens
