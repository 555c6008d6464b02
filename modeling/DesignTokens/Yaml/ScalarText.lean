import DesignTokens.Yaml.Cursor

/-
  This file defines reading the text of YAML scalars: plain,
  quoted, literal and folded.

  Key definitions include:
    * `Yaml.Gap`
    * `Yaml.takePlain?`
    * `Yaml.takeQuoted?`
    * `Yaml.takeBlock?`

  Loops over words and lines take a number of steps; one more
  than the length of the text that is left is always enough.
-/

------------------------------------------------------------
-- Gaps Between Words
------------------------------------------------------------

namespace DesignTokens

namespace Yaml

/-
  What stands between two words of a scalar: blanks on a line,
  or line breaks, the first one apart from the others.
-/
structure Gap where
  blanks : List Char
  broken : Bool
  first : List Char
  later : List Char
deriving DecidableEq, Repr

namespace Gap

/- Nothing between two words. -/
def none : Gap :=
  ⟨[], false, [], []⟩

/- A line break that was escaped, so that it reads as nothing. -/
def escaped : Gap :=
  ⟨[], true, [], []⟩

/-
  The text of a gap.  A single line break reads as a space, and
  of several the first one is dropped.
-/
def text (gap : Gap) : List Char :=
  if !gap.broken then
    gap.blanks
  else if gap.first = ['\n'] then
    if gap.later = [] then [' '] else gap.later
  else
    gap.first ++ gap.later

end Gap

/-
  Pass the blanks and line breaks of a gap.  A tab to the left
  of the column `margin` at the front of a line is refused.
-/
def takeGap?
    (margin : Nat) :
    Nat → Gap → Cursor → Option (Gap × Cursor)
| 0, gap, cur => some (gap, cur)
| steps + 1, gap, cur =>
    match cur.rest with
    | [] => some (gap, cur)
    | c :: _ =>
        if isBlank c then
          if gap.broken then
            if cur.column < margin && c = '\t' then
              Option.none
            else
              takeGap? margin steps gap (cur.skip 1)
          else
            takeGap? margin steps
              { gap with blanks := gap.blanks ++ [c] } (cur.skip 1)
        else if isBreak c then
          let (br, cur) := cur.takeBreak
          if gap.broken then
            takeGap? margin steps
              { gap with later := gap.later ++ br } cur
          else
            takeGap? margin steps ⟨[], true, br, []⟩ cur
        else
          some (gap, cur)

end Yaml

end DesignTokens

------------------------------------------------------------
-- Plain Scalars
------------------------------------------------------------

namespace DesignTokens

namespace Yaml

/- Characters that part the items of a flow collection. -/
def isFlowIndicator (c : Char) : Bool :=
  c = ',' || c = '[' || c = ']' || c = '\x7b' || c = '\x7d'

/-
  The characters of a plain scalar up to a blank, a line break
  or a mark that ends the scalar.  In a flow collection a colon
  right before an indicator is refused.
-/
def plainRun?
    (flow : Bool) :
    List Char → Option (List Char)
| [] => some []
| c :: cs =>
    if startsBlank (c :: cs) then
      some []
    else if c = ':' && flow
        && cs.head?.any (fun d => isFlowIndicator d || d = '?') then
      none
    else if c = ':' && startsBlank cs then
      some []
    else if flow && isFlowIndicator c then
      some []
    else
      (plainRun? flow cs).map (c :: ·)

/-
  Read the words of a plain scalar after a gap, and the gap with
  them if there are any.  Also tells whether a gap with a line
  break follows.
-/
def takePlainFrom?
    (flow : Bool)
    (margin : Nat) :
    Nat → Gap → Cursor → Option (List Char × Bool × Cursor)
| 0, _, _ => none
| steps + 1, gap, cur =>
    if cur.atMark || cur.rest.head? = some '#' then
      some ([], gap.broken, cur)
    else
      match plainRun? flow cur.rest with
      | none => none
      | some [] => some ([], gap.broken, cur)
      | some run =>
          let text := gap.text ++ run
          let cur := cur.skip run.length
          match takeGap? margin steps Gap.none cur with
          | none => none
          | some (gap, cur) =>
              if gap = Gap.none || (!flow && cur.column < margin) then
                some (text, gap.broken, cur)
              else
                match takePlainFrom? flow margin steps gap cur with
                | none => none
                | some (more, broken, cur) =>
                    some (text ++ more, broken, cur)

/-
  Read a plain scalar at the cursor.  Outside flow collections
  its lines start at the column `margin` or to the right of it.
-/
def takePlain?
    (flow : Bool)
    (margin : Nat)
    (cur : Cursor) : Option (List Char × Bool × Cursor) :=
  takePlainFrom? flow margin (cur.rest.length + 1) Gap.none cur

end Yaml

end DesignTokens

------------------------------------------------------------
-- Quoted Scalars
------------------------------------------------------------

namespace DesignTokens

namespace Yaml

/- Why a run of quoted characters ends. -/
inductive RunEnd where
| closed
| gap
| escapedBreak
deriving DecidableEq, Repr

/- The character of an escape without digits. -/
def ofEscape? (c : Char) : Option Char :=
  match c with
  | '0' => some '\x00'
  | 'a' => some '\x07'
  | 'b' => some '\x08'
  | 't' => some '\t'
  | '\t' => some '\t'
  | 'n' => some '\n'
  | 'v' => some '\x0B'
  | 'f' => some '\x0C'
  | 'r' => some '\r'
  | 'e' => some '\x1B'
  | ' ' => some ' '
  | '"' => some '"'
  | '/' => some '/'
  | '\\' => some '\\'
  | 'N' => some '\u0085'
  | '_' => some '\u00A0'
  | 'L' => some '\u2028'
  | 'P' => some '\u2029'
  | _ => none

/- The character with a number written in hexadecimal digits. -/
def ofCode? (digits : List Char) : Option Char :=
  match Decimal.ofDigits? 16 digits with
  | none => none
  | some n =>
      if n.isValidChar then some (Char.ofNat n) else none

/- What a run of quoted characters read, why it ended, the rest. -/
abbrev Run : Type :=
  List Char × RunEnd × List Char

/- Put a character in front of a run. -/
def Run.cons
    (c : Char)
    (run : Run) : Run :=
  (c :: run.1, run.2)

/- The characters in single quotes up to a blank or the end. -/
def singleRun : List Char → Run
| [] => ([], .gap, [])
| '\'' :: '\'' :: cs => Run.cons '\'' (singleRun cs)
| '\'' :: cs => ([], .closed, cs)
| c :: cs =>
    if startsBlank (c :: cs) then
      ([], .gap, c :: cs)
    else
      Run.cons c (singleRun cs)

/-
  The characters in double quotes up to a blank, the end or an
  escaped line break.  An unknown escape is refused.
-/
def doubleRun? : List Char → Option Run
| [] => some ([], .gap, [])
| '"' :: cs => some ([], .closed, cs)
| '\\' :: 'x' :: a :: b :: cs => do
    let c ← ofCode? [a, b]
    return Run.cons c (← doubleRun? cs)
| '\\' :: 'u' :: a :: b :: c :: d :: cs => do
    let c ← ofCode? [a, b, c, d]
    return Run.cons c (← doubleRun? cs)
| '\\' :: 'U' :: a :: b :: c :: d :: e :: f :: g :: h :: cs => do
    let c ← ofCode? [a, b, c, d, e, f, g, h]
    return Run.cons c (← doubleRun? cs)
| '\\' :: c :: cs =>
    if isBreak c then
      some ([], .escapedBreak, c :: cs)
    else do
      let c ← ofEscape? c
      return Run.cons c (← doubleRun? cs)
| c :: cs =>
    if startsBlank (c :: cs) then
      some ([], .gap, c :: cs)
    else do
      return Run.cons c (← doubleRun? cs)

/- Read the text of a quoted scalar up to its closing quote. -/
def takeQuotedFrom?
    (single : Bool) :
    Nat → Cursor → Option (List Char × Cursor)
| 0, _ => none
| steps + 1, cur =>
    if cur.atMark || cur.rest = [] then
      none
    else
      let run? :=
        if single then some (singleRun cur.rest)
        else doubleRun? cur.rest
      match run? with
      | none => none
      | some (run, .closed, rest) => some (run, cur.skipTo rest)
      | some (run, .gap, rest) =>
          match takeGap? 0 steps Gap.none (cur.skipTo rest) with
          | none => none
          | some (gap, cur) =>
              (takeQuotedFrom? single steps cur).map
                fun (more, cur) => (run ++ gap.text ++ more, cur)
      | some (run, .escapedBreak, rest) =>
          match takeGap? 0 steps Gap.escaped
              (cur.skipTo rest).takeBreak.2 with
          | none => none
          | some (gap, cur) =>
              (takeQuotedFrom? single steps cur).map
                fun (more, cur) => (run ++ gap.text ++ more, cur)

/- Read a quoted scalar whose opening quote is at the cursor. -/
def takeQuoted?
    (single : Bool)
    (cur : Cursor) : Option (List Char × Cursor) :=
  takeQuotedFrom? single (cur.rest.length + 1) (cur.skip 1)

end Yaml

end DesignTokens

------------------------------------------------------------
-- Literal and Folded Scalars
------------------------------------------------------------

namespace DesignTokens

namespace Yaml

/- What becomes of the line breaks at the end of a block. -/
inductive Chomping where
| strip
| clip
| keep
deriving DecidableEq, Repr

/- Read a chomping mark, which may be absent. -/
def takeChomping : List Char → Option Chomping × List Char
| '+' :: cs => (some .keep, cs)
| '-' :: cs => (some .strip, cs)
| cs => (none, cs)

/- Read an indentation mark, which may be absent but not zero. -/
def takeIncrement? : List Char → Option (Option Nat × List Char)
| c :: cs =>
    if c = '0' then none
    else if Decimal.isDigit c then
      some (some (c.toNat - '0'.toNat), cs)
    else
      some (none, c :: cs)
| [] => some (none, [])

/- Read the two marks after the indicator, in either order. -/
def takeHeader?
    (cs : List Char) :
    Option (Chomping × Option Nat × List Char) := do
  let (before, cs) := takeChomping cs
  let (increment, cs) ← takeIncrement? cs
  match before, increment with
  | some chomping, _ => return (chomping, increment, cs)
  | none, none => return (.clip, none, cs)
  | none, some _ =>
      let (after, cs) := takeChomping cs
      return (after.getD .clip, increment, cs)

/-
  Pass the indentation and the empty lines before a line of a
  block.  While the indentation is unknown every space counts,
  and the widest one is kept; a tab in its place is refused.
-/
def takeIndentation?
    (indent : Option Nat) :
    Nat → Nat → List Char → Cursor →
      Option (Nat × List Char × Cursor)
| 0, _, _, _ => none
| steps + 1, widest, breaks, cur =>
    let spaces := (cur.rest.takeWhile (· = ' ')).length
    let cur :=
      match indent with
      | none => cur.skip spaces
      | some n => cur.skip (min spaces (n - cur.column))
    let widest := max widest cur.column
    let inside :=
      match indent with
      | none => true
      | some n => cur.column < n
    if inside && cur.rest.head? = some '\t' then
      none
    else if cur.rest ≠ [] && startsBreak cur.rest then
      let (br, cur) := cur.takeBreak
      takeIndentation? indent steps widest (breaks ++ br) cur
    else
      some (widest, breaks, cur)

/- The lines of a block read so far. -/
structure Block where
  text : List Char
  first : List Char
  later : List Char
  startedBlank : Bool

namespace Block

/- Before the first line of a block. -/
def start (breaks : List Char) : Block :=
  ⟨[], [], breaks, false⟩

/-
  Add a line and the breaks after it.  Folding turns a single
  line break between two lines that do not start with a blank
  into a space, and drops the first of several.
-/
def addLine
    (folded : Bool)
    (block : Block)
    (line first later : List Char) : Block :=
  let blank := line.head?.any isBlank
  let join :=
    if folded && block.first = ['\n']
        && !block.startedBlank && !blank then
      if block.later = [] then [' '] else block.later
    else
      block.first ++ block.later
  ⟨block.text ++ join ++ line, first, later, blank⟩

/- The text of a block, its last line breaks chomped. -/
def chomp
    (chomping : Chomping)
    (block : Block) : List Char :=
  match chomping with
  | .strip => block.text
  | .clip => block.text ++ block.first
  | .keep => block.text ++ block.first ++ block.later

end Block

/- Read the lines of a block at a known indentation. -/
def takeLines?
    (folded : Bool)
    (indent : Nat) :
    Nat → Block → Cursor → Option (Block × Cursor)
| 0, _, _ => none
| steps + 1, block, cur =>
    if cur.column = indent && cur.rest ≠ [] then
      let line := cur.rest.takeWhile (fun c => !isBreak c)
      let (first, cur) := (cur.skip line.length).takeBreak
      match takeIndentation? (some indent)
          (cur.rest.length + 1) 0 [] cur with
      | none => none
      | some (_, later, cur) =>
          takeLines? folded indent steps
            (block.addLine folded line first later) cur
    else
      some (block, cur)

/-
  Read a block whose indicator is at the cursor.  Its lines are
  deeper than the column `parent` of the collection around it,
  which is -1 at the top.
-/
def takeBlock?
    (folded : Bool)
    (parent : Int)
    (cur : Cursor) : Option (List Char × Cursor) := do
  let (chomping, increment, rest) ← takeHeader? (cur.rest.drop 1)
  let cur ← (cur.skipTo rest).endLine?
  let known := increment.map fun n => (max parent 0).toNat + n
  let (widest, breaks, cur) ←
    takeIndentation? known (cur.rest.length + 1) 0 [] cur
  let indent :=
    known.getD (max widest (max (parent + 1).toNat 1))
  let (block, cur) ←
    takeLines? folded indent (cur.rest.length + 1)
      (Block.start breaks) cur
  return (block.chomp chomping, cur)

end Yaml

end DesignTokens
