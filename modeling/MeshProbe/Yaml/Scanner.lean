import MeshProbe.Yaml.Scalar
/-!
Cutting YAML text into tokens. Indentation opens and closes blocks, and a scalar or collection
that turns out to be followed by a colon becomes a key after the fact. Text that does not follow
the rules has no tokens at all; a zero character ends the text.
-/

namespace MeshProbe.Yaml

/-- A place where a key may have begun that needs no indicator. -/
structure PossibleKey where
  isOpen : Bool
  isRequired : Bool
  /-- How many tokens stand in front of it. -/
  token : Nat
  mark : Mark

structure Scanner where
  cursor : Cursor
  /-- The tokens so far, the latest first. -/
  tokens : List Token
  /-- Whether a key that needs no indicator may begin here. -/
  allowsKey : Bool
  /-- A possible key for each open flow collection, the innermost first, and one for the block. -/
  keys : List PossibleKey
  /-- The column of the open block, -1 outside of any. -/
  indent : Int
  /-- The columns of the blocks around it, the innermost first. -/
  outer : List Int
  /-- How many flow collections are open. -/
  flow : Nat
  /-- The place behind a quoted scalar in a flow collection, where a colon needs no blank. -/
  adjacent : Nat

namespace Scanner

def initial (text : List Char) : Scanner where
  cursor := ⟨Mark.start, text⟩
  tokens := []
  allowsKey := true
  keys := [⟨false, false, 0, Mark.start⟩]
  indent := -1
  outer := []
  flow := 0
  adjacent := 0

def inFlow (s : Scanner) : Bool := s.flow ≠ 0

def emit (s : Scanner) (t : Token) : Scanner := { s with tokens := t :: s.tokens }

def skip (s : Scanner) (count : Nat) : Scanner := { s with cursor := s.cursor.skip count }

def allowKey (s : Scanner) (allows : Bool) : Scanner := { s with allowsKey := allows }

/-- Puts a token where so many others stand in front of it. -/
def insertAt (s : Scanner) (place : Nat) (t : Token) : Scanner :=
  let later := s.tokens.length - place
  { s with tokens := s.tokens.take later ++ t :: s.tokens.drop later }

/-- Gives up a possible key; `none` if it had to become one. -/
def dropKey (s : Scanner) : Option Scanner :=
  match s.keys with
  | [] => some s
  | k :: outer =>
    if k.isOpen && k.isRequired then none
    else some { s with keys := { k with isOpen := false } :: outer }

/-- Takes the present place for a possible key, if one may begin here. -/
def saveKey (s : Scanner) : Option Scanner := do
  if !s.allowsKey then return s
  let required := s.inFlow && s.indent == s.cursor.mark.column
  let s ← s.dropKey
  return { s with keys := ⟨true, required, s.tokens.length, s.cursor.mark⟩ :: s.keys.drop 1 }

/-- Gives up the possible keys that lie on an earlier line or more than 1024 characters back. -/
def dropStaleKeys (s : Scanner) : Option Scanner := do
  let keys ← s.keys.mapM fun k =>
    let m := s.cursor.mark
    if k.isOpen && (decide (k.mark.line < m.line) || decide (k.mark.index + 1024 < m.index)) then
      if k.isRequired then none else some { k with isOpen := false }
    else some k
  return { s with keys }

/-- Opens a block at a column that lies deeper than the open one; its token comes last, or at a
place further in front. -/
def openBlock (s : Scanner) (column : Nat) (place : Option Nat) (t : Token) : Scanner :=
  if s.inFlow || decide ((column : Int) ≤ s.indent) then s
  else
    let s := { s with outer := s.indent :: s.outer, indent := column }
    match place with
    | some n => s.insertAt n t
    | none => s.emit t

/-- Closes blocks from the innermost on while they lie deeper than a column. -/
def closeTo (column : Int) : List Int → Scanner → Scanner
  | outer, s =>
    if s.indent ≤ column then s
    else
      match outer with
      | [] => { s with indent := -1, outer := [] }.emit .blockEnd
      | i :: outer => closeTo column outer ({ s with indent := i, outer }.emit .blockEnd)

def closeBlocks (s : Scanner) (column : Int) : Scanner :=
  if s.inFlow then s else closeTo column s.outer s

/-- Blanks, comments and line breaks in front of a token. In a block a tab may stand only where
no key can begin. Each step takes at least one character. -/
def skipToToken : Nat → Scanner → Scanner
  | 0, s => s
  | steps + 1, s =>
    match s.cursor.rest with
    | ' ' :: _ => skipToToken steps (s.skip 1)
    | '\t' :: _ => if s.inFlow || !s.allowsKey then skipToToken steps (s.skip 1) else s
    | '\n' :: _ | '\r' :: _ =>
      let s := { s with cursor := s.cursor.skipBreak }
      skipToToken steps (if s.inFlow then s else s.allowKey true)
    | '#' :: _ => skipToToken steps { s with cursor := s.cursor.skipComment }
    | _ => s

/-! ### Directives and tags -/

/-- A number of one to nine digits. -/
def skipVersionNumber (c : Cursor) : Option Cursor :=
  let count := (c.takeWhile Char.isDigit).length
  if count = 0 || 9 < count then none else some (c.skip count)

/-- The escapes of one character of a tag: as many bytes as the first one tells, put one behind
the other. -/
def uriEscape (c : Cursor) : Option (Char × Cursor) := do
  let octet (c : Cursor) : Option Nat := do
    guard (c.peek = some '%')
    let high ← (c.peekAt 1).bind hexValue?
    let low ← (c.peekAt 2).bind hexValue?
    return high * 16 + low
  let first ← octet c
  let width ←
    if first < 0x80 then some 1
    else if 0xC0 ≤ first ∧ first < 0xE0 then some 2
    else if 0xE0 ≤ first ∧ first < 0xF0 then some 3
    else if 0xF0 ≤ first ∧ first < 0xF8 then some 4
    else none
  let code ← (List.range (width - 1)).foldlM (fun code i => do
    let next ← octet (c.skip (3 * (i + 1)))
    guard (0x80 ≤ next ∧ next < 0xC0)
    return code * 256 + next) first
  let char ← charOfCode? code
  return (char, c.skip (3 * width))

def isUriChar (c : Char) : Bool :=
  isWordChar c || ";/?:@&=+$,.!~*'()[]%".toList.contains c

/-- The characters of a tag, in reverse. Each step takes at least one of them. -/
def uriChars : Nat → List Char → Cursor → Option (List Char × Cursor)
  | 0, text, c => some (text, c)
  | steps + 1, text, c =>
    match c.peek with
    | some '%' => do
      let (char, c) ← uriEscape c
      uriChars steps (char :: text) c
    | some char =>
      if isUriChar char then uriChars steps (char :: text) (c.skip 1) else some (text, c)
    | none => some (text, c)

/-- The rest of a tag behind a head whose first character does not belong to it. Head and rest
must not both be empty. -/
def tagUri (head : List Char) (c : Cursor) : Option (String × Cursor) := do
  let (text, c') ← uriChars c.rest.length [] c
  guard (head ≠ [] ∨ text ≠ [])
  return (String.ofList (head.drop 1 ++ text.reverse), c')

/-- A handle: an exclamation mark, a word, and perhaps a second mark, which a directive wants. -/
def tagHandle (directive : Bool) (c : Cursor) : Option (List Char × Cursor) := do
  guard (c.peek = some '!')
  let c := c.skip 1
  let word := c.takeWhile isWordChar
  let c := c.skip word.length
  if c.peek = some '!' then return ('!' :: word ++ ['!'], c.skip 1)
  guard (!directive || word.isEmpty)
  return ('!' :: word, c)

/-- A tag: verbatim in angle brackets, or a handle and a suffix. -/
def scanTag (c : Cursor) : Option (Tag × Cursor) := do
  let (tag, c) ←
    if c.peekAt 1 = some '<' then do
      let (suffix, c) ← tagUri [] (c.skip 2)
      guard (c.peek = some '>')
      pure ((⟨"", suffix⟩ : Tag), c.skip 1)
    else do
      let (handle, c) ← tagHandle false c
      if 2 ≤ handle.length ∧ handle.getLast? = some '!' then
        let (suffix, c) ← tagUri [] c
        pure ((⟨String.ofList handle, suffix⟩ : Tag), c)
      else
        let (suffix, c) ← tagUri handle c
        pure ((if suffix = "" then ⟨"", "!"⟩ else ⟨"!", suffix⟩ : Tag), c)
  guard (isBlankOrEnd c.peek)
  return (tag, c)

/-- A directive: a version, a tag prefix, or any other, which has no meaning. -/
def scanDirective (c : Cursor) : Option (Token × Cursor) := do
  let c := c.skip 1
  let name := c.takeWhile isWordChar
  let c := c.skip name.length
  guard (name ≠ [] ∧ isBlankOrEnd c.peek)
  let (token, c) ←
    if name = ['Y', 'A', 'M', 'L'] then do
      let c ← skipVersionNumber (c.skipWhile isBlank)
      guard (c.peek = some '.')
      let c ← skipVersionNumber (c.skip 1)
      pure (Token.versionDirective, c)
    else if name = ['T', 'A', 'G'] then do
      let (_, c) ← tagHandle true (c.skipWhile isBlank)
      let (_, c) ← tagUri [] (c.skipWhile isBlank)
      guard (isBlankOrEnd c.peek)
      pure (Token.tagDirective, c)
    else pure (Token.tagDirective, c.skipWhile (!isBreak ·))
  let c ← c.skipToNextLine
  return (token, c)

/-! ### One token -/

/-- The name of an anchor or alias, which only certain characters may follow. -/
def scanAnchor (c : Cursor) : Option (String × Cursor) := do
  let c := c.skip 1
  let name := c.takeWhile isWordChar
  let c := c.skip name.length
  guard (name ≠ [])
  guard (isBlankOrEnd c.peek || ((c.peek).map ("?:,]\x7d%@`".toList.contains ·)).getD false)
  return (String.ofList name, c)

def fetchDocumentMark (s : Scanner) (t : Token) : Option Scanner := do
  let s ← (s.closeBlocks (-1)).dropKey
  return ((s.allowKey false).skip 3).emit t

def fetchFlowStart (s : Scanner) (t : Token) : Option Scanner := do
  let s ← s.saveKey
  guard (s.flow < 255)
  let s := { s with keys := ⟨false, false, 0, Mark.start⟩ :: s.keys, flow := s.flow + 1 }
  return ((s.allowKey true).skip 1).emit t

def fetchFlowEnd (s : Scanner) (t : Token) : Option Scanner := do
  let s ← s.dropKey
  let s := if s.inFlow then { s with keys := s.keys.drop 1, flow := s.flow - 1 } else s
  return ((s.allowKey false).skip 1).emit t

def fetchFlowEntry (s : Scanner) : Option Scanner := do
  let s ← s.dropKey
  return ((s.allowKey true).skip 1).emit .flowEntry

def fetchBlockEntry (s : Scanner) : Option Scanner := do
  guard (!s.inFlow && s.allowsKey)
  let s ← (s.openBlock s.cursor.mark.column none .blockSequenceStart).dropKey
  return ((s.allowKey true).skip 1).emit .blockEntry

def fetchKey (s : Scanner) : Option Scanner := do
  guard (s.inFlow || s.allowsKey)
  let s ← (s.openBlock s.cursor.mark.column none .blockMappingStart).dropKey
  return ((s.allowKey !s.inFlow).skip 1).emit .key

def fetchValue (s : Scanner) : Option Scanner := do
  match s.keys with
  | k :: outer =>
    if k.isOpen then
      let s := (s.insertAt k.token .key).openBlock k.mark.column (some k.token) .blockMappingStart
      let s := { s with keys := { k with isOpen := false } :: outer }
      return ((s.allowKey false).skip 1).emit .value
    else
      guard (s.inFlow || s.allowsKey)
      let s := s.openBlock s.cursor.mark.column none .blockMappingStart
      return ((s.allowKey !s.inFlow).skip 1).emit .value
  | [] => none

/-- A token that may begin a key and is read off the cursor. -/
def fetchContent (s : Scanner) (scan : Cursor → Option (Token × Cursor)) : Option Scanner := do
  let s ← s.saveKey
  let (t, cursor) ← scan s.cursor
  return ({ s with cursor }.allowKey false).emit t

def fetchBlockScalar (s : Scanner) (literal : Bool) : Option Scanner := do
  let s ← s.saveKey
  let (text, cursor) ← blockScalar literal s.indent (s.cursor.skip 1)
  return ({ s with cursor }.allowKey true).emit (.scalar false text)

def fetchQuoted (s : Scanner) (single : Bool) : Option Scanner := do
  let s ← s.fetchContent fun c =>
    let c := c.skip 1
    let read :=
      if single then singleQuoted none [] c.mark c.rest else doubleQuoted 0 0 none [] c.mark c.rest
    read.map fun (text, c) => (.scalar false text, c)
  return { s with adjacent := s.cursor.mark.index }

def fetchPlain (s : Scanner) : Option Scanner := do
  let s ← s.saveKey
  let (text, cursor, endsLine) ←
    plainScalar s.inFlow (s.indent + 1) none [] s.cursor.mark s.cursor.rest
  return ({ s with cursor }.allowKey endsLine).emit (.scalar true text)

/-- The next token, at a place that is neither the end nor a mark of a document. -/
def fetchByIndicator (s : Scanner) (c : Char) : Option Scanner :=
  let next := s.cursor.peekAt 1
  let spaced := isBlankOrEnd next
  match c with
  | '[' => s.fetchFlowStart .flowSequenceStart
  | '\x7b' => s.fetchFlowStart .flowMappingStart
  | ']' => s.fetchFlowEnd .flowSequenceEnd
  | '\x7d' => s.fetchFlowEnd .flowMappingEnd
  | ',' => s.fetchFlowEntry
  | '*' => s.fetchContent fun c => (scanAnchor c).map fun (name, c) => (.alias name, c)
  | '&' => s.fetchContent fun c => (scanAnchor c).map fun (name, c) => (.anchor name, c)
  | '!' => s.fetchContent fun c => (scanTag c).map fun (tag, c) => (.tag tag, c)
  | '\'' => s.fetchQuoted true
  | '"' => s.fetchQuoted false
  | '%' | '@' | '`' => none
  | '-' => if spaced then s.fetchBlockEntry else s.fetchPlain
  | '?' => if spaced then s.fetchKey else s.fetchPlain
  | ':' =>
    if spaced ||
        (s.inFlow && ((next.map isFlowIndicator).getD false || s.cursor.mark.index == s.adjacent))
    then s.fetchValue
    else s.fetchPlain
  | '|' => if s.inFlow then s.fetchPlain else s.fetchBlockScalar true
  | '>' => if s.inFlow then s.fetchPlain else s.fetchBlockScalar false
  | _ => s.fetchPlain

/-- What the end of the text closes. -/
def finish (s : Scanner) : Option (List Token) := do
  let s ← (s.closeBlocks (-1)).dropKey
  return s.tokens.reverse

/-- All tokens. Each step takes at least one character. -/
def run : Nat → Scanner → Option (List Token)
  | 0, _ => none
  | steps + 1, s => do
    let s := skipToToken s.cursor.rest.length s
    let s ← s.dropStaleKeys
    let s := s.closeBlocks s.cursor.mark.column
    match s.cursor.rest with
    | [] => s.finish
    | c :: _ =>
      let column := s.cursor.mark.column
      if column = 0 ∧ c = '%' then do
        let s ← (s.closeBlocks (-1)).dropKey
        let (t, cursor) ← scanDirective s.cursor
        run steps (({ s with cursor }.allowKey false).emit t)
      else if s.cursor.atDocumentMark then do
        let s ← s.fetchDocumentMark (if c = '-' then .documentStart else .documentEnd)
        run steps s
      else do
        let s ← s.fetchByIndicator c
        run steps s

end Scanner

/-- The tokens of a text. -/
def tokens? (text : String) : Option (List Token) :=
  let chars := text.toList.takeWhile (· ≠ '\x00')
  (Scanner.initial chars).run (chars.length + 1)

end MeshProbe.Yaml
