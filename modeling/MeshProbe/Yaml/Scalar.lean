import MeshProbe.Yaml.Token
/-!
Reading scalars off a cursor: plain ones, quoted ones and block scalars. Within a scalar a single
line break folds into a space and further ones stay.
-/

namespace MeshProbe.Yaml

/-- Blanks and line breaks between two words of a scalar. -/
structure Gap where
  /-- The blanks, the latest first. -/
  blanks : List Char
  /-- Whether the gap reaches into another line. -/
  folds : Bool
  /-- Whether its first line break counts. -/
  counts : Bool
  /-- The line breaks after the first one. -/
  more : Nat

namespace Gap

def empty : Gap := ⟨[], false, false, 0⟩

/-- A gap that begins behind an escaped line break. -/
def escaped : Gap := ⟨[], true, false, 0⟩

def addBlank (g : Gap) (c : Char) : Gap :=
  if g.folds then g else { g with blanks := c :: g.blanks }

def addBreak (g : Gap) : Gap :=
  if g.folds then { g with more := g.more + 1 } else ⟨[], true, true, 0⟩

/-- What the gap stands for, in reverse. -/
def folded (g : Gap) : List Char :=
  if !g.folds then g.blanks
  else if g.counts && g.more = 0 then [' ']
  else List.replicate g.more '\n'

end Gap

/-- What an open gap, if any, stands for, in reverse. -/
def foldedGap : Option Gap → List Char
  | none => []
  | some g => g.folded

/-- A plain scalar that ends here. -/
def plainEnd (gap : Option Gap) (text : List Char) (mark : Mark) (rest : List Char) :
    String × Cursor × Bool :=
  (String.ofList text.reverse, ⟨mark, rest⟩, (gap.map Gap.folds).getD false)

/-- A plain scalar: its text, the place after it, and whether a line break came last. -/
def plainScalar (inFlow : Bool) (indent : Int) :
    Option Gap → List Char → Mark → List Char → Option (String × Cursor × Bool)
  | gap, text, mark, [] => some (plainEnd gap text mark [])
  | gap, text, mark, c :: rest =>
    if isBlank c then
      let g := gap.getD Gap.empty
      if g.folds && decide ((mark.column : Int) < indent) && c = '\t' then none
      else plainScalar inFlow indent (some (g.addBlank c)) text (mark.after c) rest
    else if isBreak c then
      let gap := some (gap.getD Gap.empty).addBreak
      match c, rest with
      | '\r', '\n' :: rest =>
        plainScalar inFlow indent gap text ((mark.after '\r').after '\n') rest
      | c, rest => plainScalar inFlow indent gap text (mark.after c) rest
    else if gap.isSome &&
        ((!inFlow && decide ((mark.column : Int) < indent)) ||
          Cursor.atDocumentMark ⟨mark, c :: rest⟩ || c = '#') then
      some (plainEnd gap text mark (c :: rest))
    else if c = ':' &&
        (isBlankOrEnd rest.head? || (inFlow && (rest.head?.map isFlowIndicator).getD false)) then
      some (plainEnd gap text mark (c :: rest))
    else if inFlow && isFlowIndicator c then some (plainEnd gap text mark (c :: rest))
    else plainScalar inFlow indent none (c :: (foldedGap gap ++ text)) (mark.after c) rest

/-- What follows a backslash: a character, or the number of digits of its code. -/
def escapeOf : Char → Option (Char ⊕ Nat)
  | '0' => some (.inl '\x00')
  | 'a' => some (.inl '\x07')
  | 'b' => some (.inl '\x08')
  | 't' | '\t' => some (.inl '\t')
  | 'n' => some (.inl '\n')
  | 'v' => some (.inl '\x0b')
  | 'f' => some (.inl '\x0c')
  | 'r' => some (.inl '\r')
  | 'e' => some (.inl '\x1b')
  | ' ' => some (.inl ' ')
  | '"' => some (.inl '"')
  | '\'' => some (.inl '\'')
  | '\\' => some (.inl '\\')
  | 'N' => some (.inl '\u0085')
  | '_' => some (.inl '\u00a0')
  | 'L' => some (.inl '\u2028')
  | 'P' => some (.inl '\u2029')
  | 'x' => some (.inr 2)
  | 'u' => some (.inr 4)
  | 'U' => some (.inr 8)
  | _ => none

/-- The character with a code, if it has one. -/
def charOfCode? (n : Nat) : Option Char :=
  if n.isValidChar then some (Char.ofNat n) else none

/-- A scalar in double quotes, after the opening one. `digits` of an open escape are still to
come, on top of `code`. -/
def doubleQuoted (digits code : Nat) :
    Option Gap → List Char → Mark → List Char → Option (String × Cursor)
  | _, _, _, [] => none
  | gap, text, mark, c :: rest =>
    match digits with
    | digits + 1 =>
      match hexValue? c with
      | none => none
      | some d =>
        let code := code * 16 + d
        if digits = 0 then
          match charOfCode? code with
          | none => none
          | some c' => doubleQuoted 0 0 none (c' :: text) (mark.after c) rest
        else doubleQuoted digits code none text (mark.after c) rest
    | 0 =>
      if isBlank c then
        doubleQuoted 0 0 (some ((gap.getD Gap.empty).addBlank c)) text (mark.after c) rest
      else if isBreak c then
        let gap := some (gap.getD Gap.empty).addBreak
        match c, rest with
        | '\r', '\n' :: rest => doubleQuoted 0 0 gap text ((mark.after '\r').after '\n') rest
        | c, rest => doubleQuoted 0 0 gap text (mark.after c) rest
      else if gap.isSome && Cursor.atDocumentMark ⟨mark, c :: rest⟩ then none
      else
        let text := foldedGap gap ++ text
        if c = '"' then some (String.ofList text.reverse, ⟨mark.after c, rest⟩)
        else if c = '\\' then
          let mark := mark.after c
          match rest with
          | '\r' :: '\n' :: rest =>
            doubleQuoted 0 0 (some Gap.escaped) text ((mark.after '\r').after '\n') rest
          | e :: rest =>
            if isBreak e then doubleQuoted 0 0 (some Gap.escaped) text (mark.after e) rest
            else
              match escapeOf e with
              | none => none
              | some (.inl c') => doubleQuoted 0 0 none (c' :: text) (mark.after e) rest
              | some (.inr count) => doubleQuoted count 0 none text (mark.after e) rest
          | [] => none
        else doubleQuoted 0 0 none (c :: text) (mark.after c) rest

/-- A scalar in single quotes, after the opening one; a quote within it is written twice. -/
def singleQuoted : Option Gap → List Char → Mark → List Char → Option (String × Cursor)
  | _, _, _, [] => none
  | gap, text, mark, c :: rest =>
    if isBlank c then
      singleQuoted (some ((gap.getD Gap.empty).addBlank c)) text (mark.after c) rest
    else if isBreak c then
      let gap := some (gap.getD Gap.empty).addBreak
      match c, rest with
      | '\r', '\n' :: rest => singleQuoted gap text ((mark.after '\r').after '\n') rest
      | c, rest => singleQuoted gap text (mark.after c) rest
    else if gap.isSome && Cursor.atDocumentMark ⟨mark, c :: rest⟩ then none
    else
      let text := foldedGap gap ++ text
      if c = '\'' then
        match rest with
        | '\'' :: rest => singleQuoted none ('\'' :: text) ((mark.after c).after '\'') rest
        | rest => some (String.ofList text.reverse, ⟨mark.after c, rest⟩)
      else singleQuoted none (c :: text) (mark.after c) rest

/-! ### Block scalars -/

/-- What a block scalar keeps of the line breaks at its end. -/
inductive Chomp
  | strip
  | clip
  | keep
  deriving DecidableEq, Repr

def Chomp.ofIndicator : Char → Option Chomp
  | '+' => some .keep
  | '-' => some .strip
  | _ => none

/-- The two optional indicators of a block scalar, in either order: what is kept at the end, and
the indentation. An indentation of zero is refused. -/
def blockHeader (c : Cursor) : Option (Chomp × Option Nat × Cursor) :=
  let digit? (c : Cursor) : Option Nat := c.peek.bind fun d =>
    if d.isDigit then some (d.toNat - 48) else none
  match c.peek.bind Chomp.ofIndicator with
  | some chomp =>
    let c := c.skip 1
    match digit? c with
    | some 0 => none
    | some n => some (chomp, some n, c.skip 1)
    | none => some (chomp, none, c)
  | none =>
    match digit? c with
    | some 0 => none
    | some n =>
      let c := c.skip 1
      match c.peek.bind Chomp.ofIndicator with
      | some chomp => some (chomp, some n, c.skip 1)
      | none => some (.clip, some n, c)
    | none => some (.clip, none, c)

/-- Empty lines and indentation in front of a line of a block scalar. While the indentation is
not known, any number of blanks belongs to it: the greatest column met, the number of line
breaks, and the place behind them. -/
def blockBreaks (indent : Option Nat) (widest breaks : Nat) :
    Mark → List Char → Option (Nat × Nat × Cursor)
  | mark, [] => some (max widest mark.column, breaks, ⟨mark, []⟩)
  | mark, c :: rest =>
    let inIndent := match indent with
      | none => true
      | some n => mark.column < n
    if c = ' ' && inIndent then blockBreaks indent widest breaks (mark.after c) rest
    else if c = '\t' && inIndent then none
    else if isBreak c then
      let widest := max widest mark.column
      match c, rest with
      | '\r', '\n' :: rest =>
        blockBreaks indent widest (breaks + 1) ((mark.after '\r').after '\n') rest
      | c, rest => blockBreaks indent widest (breaks + 1) (mark.after c) rest
    else some (max widest mark.column, breaks, ⟨mark, c :: rest⟩)

/-- How far the lines of a block scalar have been put together. -/
structure BlockText where
  /-- In reverse. -/
  text : List Char
  /-- Whether the last line read ended in a line break that is not yet part of the text. -/
  pending : Bool
  /-- Empty lines since then. -/
  breaks : Nat
  /-- Whether the last line read began with a blank. -/
  indented : Bool

namespace BlockText

def empty (breaks : Nat) : BlockText := ⟨[], false, breaks, false⟩

/-- Adds a line that does not begin or does begin with a blank. -/
def addLine (b : BlockText) (literal : Bool) (line : List Char) : BlockText :=
  let indented := (line.head?.map isBlank).getD false
  let folds := !literal && b.pending && !b.indented && !indented
  let lead :=
    if folds then (if b.breaks = 0 then [' '] else [])
    else if b.pending then ['\n'] else []
  { text := line.reverse ++ (List.replicate b.breaks '\n' ++ (lead ++ b.text))
    pending := false, breaks := 0, indented }

/-- The text with what is kept at its end. -/
def finish (b : BlockText) (chomp : Chomp) : String :=
  let tail := match chomp with
    | .strip => []
    | .clip => if b.pending then ['\n'] else []
    | .keep => List.replicate b.breaks '\n' ++ (if b.pending then ['\n'] else [])
  String.ofList (tail ++ b.text).reverse

end BlockText

/-- The lines of a block scalar that are indented as wanted. Each step takes at least a line
break. -/
def blockLines (literal : Bool) (indent : Nat) :
    Nat → BlockText → Cursor → Option (BlockText × Cursor)
  | 0, b, c => some (b, c)
  | steps + 1, b, c =>
    if c.mark.column ≠ indent || c.rest.isEmpty then some (b, c)
    else
      let line := c.takeWhile (!isBreak ·)
      let b := b.addLine literal line
      let c := c.skip line.length
      if c.rest.isEmpty then some (b, c)
      else
        let c := c.skipBreak
        match blockBreaks (some indent) 0 0 c.mark c.rest with
        | none => none
        | some (_, breaks, c) =>
          blockLines literal indent steps { b with pending := true, breaks } c

/-- A block scalar after its indicator, within a block of the given indentation. -/
def blockScalar (literal : Bool) (parent : Int) (c : Cursor) : Option (String × Cursor) := do
  let (chomp, increment, c) ← blockHeader c
  let c ← c.skipToNextLine
  let wanted : Option Nat := increment.map fun n => parent.toNat + n
  let (widest, breaks, c) ← blockBreaks wanted 0 0 c.mark c.rest
  let indent := wanted.getD (max (max widest (parent + 1).toNat) 1)
  let (b, c) ← blockLines literal indent (c.rest.length + 1) (BlockText.empty breaks) c
  return (b.finish chomp, c)

end MeshProbe.Yaml
