import NoteTemplate.Yaml.Scalar

/-!
# Block scalars

A block scalar begins with `|` or `>` and a header, and consists of the lines that are
indented more than what is around it. With `|` the line breaks stay. With `>` a break between
two lines that do not begin with white space becomes a blank, or nothing if more breaks
follow it. The header tells what becomes of the breaks at the end.

* `readBlockScalar`: the text of a block scalar and what follows it.
-/

namespace NoteTemplate.Yaml

/-- What becomes of the line breaks at the end. -/
inductive Chomping
  /-- none of them stays -/
  | strip
  /-- the first of them stays -/
  | clip
  /-- all of them stay -/
  | keep
deriving DecidableEq, Repr

/-- The header of a block scalar. -/
structure BlockHeader where
  chomping : Chomping
  /-- the indentation in addition to that of the surroundings; 0 if the lines tell it -/
  increment : Nat
deriving DecidableEq, Repr

namespace BlockHeader

/-- The chomping indicator, if there is one. -/
def readChomping : Text → Option (Chomping × Text)
  | '+' :: cs => some (.keep, cs)
  | '-' :: cs => some (.strip, cs)
  | _ => none

/-- The indentation indicator; 0 stands for none. -/
def readIncrement : Text → Except Cause (Nat × Text)
  | [] => .ok (0, [])
  | c :: cs =>
    if c = '0' then .error .zeroIndentation
    else if c.isDigit then .ok (c.toNat - 48, cs)
    else .ok (0, c :: cs)

/-- Both indicators, in either order. -/
def read (s : Text) : Except Cause (BlockHeader × Text) :=
  match readChomping s with
  | some (chomping, s) => (readIncrement s).map fun (n, s) => (⟨chomping, n⟩, s)
  | none =>
    match readIncrement s with
    | .error e => .error e
    | .ok (0, s) => .ok (⟨.clip, 0⟩, s)
    | .ok (n, s) =>
      match readChomping s with
      | some (chomping, s) => .ok (⟨chomping, n⟩, s)
      | none => .ok (⟨.clip, n⟩, s)

end BlockHeader

/-- Empty lines, and the indentation of the line behind them. -/
structure Margin where
  breaks : Text
  /-- the widest indentation that was met -/
  widest : Nat
  next : Cursor
deriving DecidableEq, Repr

/-- The empty lines at a place. Blanks are indentation up to the column `indent`, or all of
them if it is 0. -/
def Margin.read (indent : Nat) : (line column bytes : Nat) → Text → Except Cause Margin
  | line, column, bytes, [] => .ok ⟨[], column, ⟨[], line, column, bytes⟩⟩
  | line, column, bytes, c :: cs =>
    let inside := indent = 0 || column < indent
    if inside && c = ' ' then read indent line (column + 1) (bytes + 1) cs
    else if inside && c = '\t' then .error .misplacedTab
    else if isBreak c then
      (read indent (line + 1) 0 0 cs).map fun m =>
        { m with breaks := c :: m.breaks, widest := max column m.widest }
    else .ok ⟨[], column, ⟨c :: cs, line, column, bytes⟩⟩

/-- The empty lines at a cursor. -/
def Margin.readAt (indent : Nat) (c : Cursor) : Except Cause Margin :=
  read indent c.line c.column c.bytes c.rest

/-- What precedes the next line of a block scalar. -/
structure BlockLines where
  /-- the break behind the line before -/
  leading : Text
  /-- the line before begins with white space -/
  indented : Bool
  /-- the breaks of the empty lines in between -/
  trailing : Text
  next : Cursor

/-- Adds line after line, as long as they have the indentation. Returns the text and what
comes behind the last line. -/
def BlockLines.read (folded : Bool) (indent : Nat) :
    (fuel : Nat) → BlockLines → Except Cause (Text × BlockLines)
  | 0, b => .ok ([], b)
  | fuel + 1, b =>
    match b.next.rest with
    | [] => .ok ([], b)
    | c :: _ =>
      if b.next.column ≠ indent then .ok ([], b)
      else
        let indented := isBlank c
        let joint :=
          if folded && b.leading = ['\n'] && !b.indented && !indented then
            if b.trailing = [] then [' '] else []
          else b.leading
        let line := b.next.rest.takeWhile fun d => !isBreak d
        let afterLine := b.next.skip line.length
        let leading := afterLine.rest.take 1
        let next := if leading = [] then afterLine else afterLine.skipBreak
        match Margin.readAt indent next with
        | .error e => .error e
        | .ok m =>
          (read folded indent fuel ⟨leading, indented, m.breaks, m.next⟩).map fun (more, last) =>
            (joint ++ b.trailing ++ line ++ more, last)

/-- A block scalar whose surroundings are indented by less than `parent` columns. -/
def readBlockScalar (folded : Bool) (parent : Nat) (c : Cursor) : Except Cause Scalar := do
  let (header, rest) ← BlockHeader.read (c.skip 1).rest
  let first ← ((c.skip 1).moveTo rest).readLineEnd
  let given := if header.increment = 0 then 0 else parent - 1 + header.increment
  let margin ← Margin.readAt given first
  let indent := if given = 0 then max margin.widest (max parent 1) else given
  let (text, last) ← BlockLines.read folded indent (margin.next.rest.length + 1)
    ⟨[], false, margin.breaks, margin.next⟩
  let tail := match header.chomping with
    | .strip => []
    | .clip => last.leading
    | .keep => last.leading ++ last.trailing
  return ⟨text ++ tail, last.next, true⟩

end NoteTemplate.Yaml
