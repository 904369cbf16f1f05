import Tabular.Yaml.Spot

/-!
Reading YAML scalars. A plain or quoted scalar folds the breaks inside it: one break becomes a
space, and of more the first is dropped. A block scalar keeps its breaks, or folds those between
lines of text.
-/
namespace Tabular.Yaml

inductive ScalarStyle where
  | plain | singleQuoted | doubleQuoted | literal | folded
  deriving DecidableEq, Repr

/-- White space inside a scalar. Spaces count only if there is no break. -/
structure Gap where
  spaces : List Char := []
  breaks : List Char := []
  deriving DecidableEq, Repr

namespace Gap

def isBroken (g : Gap) : Bool := !g.breaks.isEmpty

/-- What a gap stands for. -/
def folded (g : Gap) : List Char :=
  match g.breaks with
  | [] => g.spaces
  | '\n' :: [] => [' ']
  | '\n' :: more => more
  | breaks => breaks

/-- Reads white space. Behind a break no tab may stand left of the indentation. -/
def scan? (indent : Int) (broken : Bool) : List Spot → Option (Gap × List Spot)
  | [] => some ({}, [])
  | s :: rest =>
    if s.isBreak then do
      let (g, rest) ← scan? indent true rest
      return ({ g with breaks := s.char :: g.breaks }, rest)
    else if s.isSpacing then
      if broken && s.char == '\t' && s.column < indent then none
      else do
        let (g, rest) ← scan? indent broken rest
        return ({ g with spaces := s.char :: g.spaces }, rest)
    else some ({}, s :: rest)

end Gap

/-! ### Plain scalars -/

def isFlowMark (c : Char) : Bool := c ∈ [',', '[', ']', '\x7b', '\x7d']

/-- Reads a run of a plain scalar: up to white space, to a colon before white space or, inside
brackets, to a mark. A colon inside brackets must not stand before a mark. -/
def plainRun? (inFlow : Bool) : List Spot → Option (List Char × List Spot)
  | [] => some ([], [])
  | s :: rest =>
    if s.isBlank then some ([], s :: rest)
    else if s.char == ':' && inFlow && rest.head?.any (fun x => isFlowMark x.char || x.char == '?')
    then none
    else if (s.char == ':' && endsWord rest) || (inFlow && isFlowMark s.char) then
      some ([], s :: rest)
    else do
      let (cs, rest) ← plainRun? inFlow rest
      return (s.char :: cs, rest)

/-- A scalar's text, whether a line ended behind it, and the rest. -/
structure PlainScan where
  text : List Char
  broken : Bool
  rest : List Spot

/-- Reads a plain scalar on from a gap. -/
def plainFrom? (indent : Int) (inFlow : Bool) (gap : Gap) (s : List Spot) : Option PlainScan :=
  if isDocumentMark s || startsWith '#' s then some ⟨[], gap.isBroken, s⟩
  else
    match plainRun? inFlow s with
    | none => none
    | some ([], _) => some ⟨[], gap.isBroken, s⟩
    | some (run, rest) =>
      if !endsWord rest || rest.isEmpty then some ⟨gap.folded ++ run, false, rest⟩
      else
        match Gap.scan? indent false rest with
        | none => none
        | some (next, rest) =>
          if !inFlow && rest.head?.any (·.column < indent) then
            some ⟨gap.folded ++ run, next.isBroken, rest⟩
          else if rest.length < s.length then do
            let more ← plainFrom? indent inFlow next rest
            return { more with text := gap.folded ++ run ++ more.text }
          else none
termination_by s.length

/-! ### Quoted scalars -/

/-- The characters after a backslash that stand for one character. -/
def escape? : Char → Option Char
  | '0' => some '\x00'
  | 'a' => some '\x07'
  | 'b' => some '\x08'
  | 't' | '\t' => some '\t'
  | 'n' => some '\n'
  | 'v' => some '\x0b'
  | 'f' => some '\x0c'
  | 'r' => some '\r'
  | 'e' => some '\x1b'
  | ' ' => some ' '
  | '"' => some '"'
  | '/' => some '/'
  | '\\' => some '\\'
  | 'N' => some '\u0085'
  | '_' => some '\u00a0'
  | 'L' => some '\u2028'
  | 'P' => some '\u2029'
  | _ => none

/-- How many digits follow a letter that announces a number. -/
def escapeDigits? : Char → Option Nat
  | 'x' => some 2
  | 'u' => some 4
  | 'U' => some 8
  | _ => none

/-- The character behind a backslash, and the rest. -/
def scanEscape? : List Spot → Option (Char × List Spot)
  | [] => none
  | s :: rest =>
    match escapeDigits? s.char with
    | some n =>
      if rest.length < n then none
      else do
        let c ← character? (← hexNumber? ((rest.take n).map (·.char)))
        return (c, rest.drop n)
    | none => (escape? s.char).map (·, rest)

/-- Reads a scalar up to its closing quote. -/
def quoted? (quote : Char) (s : List Spot) : Option (List Char × List Spot) :=
  let continueWith (text : List Char) (rest : List Spot) : Option (List Char × List Spot) :=
    if rest.length < s.length then do
      let (more, rest) ← quoted? quote rest
      return (text ++ more, rest)
    else none
  match s with
  | [] => none
  | x :: rest =>
    if isDocumentMark s then none
    else if x.char == quote then
      if quote == '\'' && startsWith quote rest then continueWith [quote] rest.tail
      else some ([], rest)
    else if x.isBlank then do
      let (gap, rest) ← Gap.scan? 0 false s
      continueWith gap.folded rest
    else if quote == '"' && x.char == '\\' then
      if rest.head?.any (·.isBreak) then do
        let (gap, rest) ← Gap.scan? 0 true rest.tail
        continueWith gap.breaks rest
      else do
        let (c, rest) ← scanEscape? rest
        continueWith [c] rest
    else continueWith [x.char] rest
termination_by s.length

/-! ### Block scalars -/

inductive Chomping where
  | clip | strip | keep
  deriving DecidableEq, Repr

def chomping? : Char → Option Chomping
  | '-' => some .strip
  | '+' => some .keep
  | _ => none

/-- The header of a block scalar: how it ends and by how much it is indented, in either order. -/
def blockHeader? (s : List Spot) : Option (Chomping × Option Nat × List Spot) := do
  let chomping (s : List Spot) : Option Chomping × List Spot :=
    match s.head?.bind (chomping? ·.char) with
    | some c => (some c, s.tail)
    | none => (none, s)
  let width (s : List Spot) : Option (Option Nat × List Spot) :=
    match s with
    | x :: rest =>
      if x.char == '0' then none
      else if x.char.isDigit then some (some (x.char.toNat - '0'.toNat), rest)
      else some (none, s)
    | [] => some (none, [])
  let (before, s) := chomping s
  let (increment, s) ← width s
  let (behind, s) := if before.isNone && increment.isSome then chomping s else (none, s)
  return ((before.or behind).getD .clip, increment, ← endLine? s)

/-- Reads indentation and empty lines. Gives the breaks and the greatest column reached. Without a
width of indentation every space belongs to it. -/
def blockBreaks? (width : Option Nat) (greatest : Nat) :
    List Spot → Option (List Char × Nat × List Spot)
  | [] => some ([], greatest, [])
  | s :: rest =>
    let inside := width.all (s.column < ·)
    if s.char == ' ' && inside then blockBreaks? width (max greatest (s.column + 1)) rest
    else if s.char == '\t' && inside then none
    else if s.isBreak then do
      let (breaks, greatest, rest) ← blockBreaks? width greatest rest
      return (s.char :: breaks, greatest, rest)
    else some ([], greatest, s :: rest)

/-- What precedes a line of a block scalar: the break of the line before it, the empty lines
between, and whether that line began with white space. -/
structure LineGap where
  leading : List Char := []
  trailing : List Char := []
  afterBlank : Bool := false

/-- A folded scalar joins two lines by a space unless one begins with white space. -/
def LineGap.text (g : LineGap) (folds isBlank : Bool) : List Char :=
  (if folds && g.leading == ['\n'] && !g.afterBlank && !isBlank then
    (if g.trailing.isEmpty then [' '] else [])
  else g.leading) ++ g.trailing

/-- Reads the lines of a block scalar. Gives the text, the gap behind it and the rest. -/
def blockLines? (folds : Bool) (width : Nat) (gap : LineGap) (s : List Spot) :
    Option (List Char × LineGap × List Spot) :=
  match s.head? with
  | none => some ([], gap, s)
  | some x =>
    if x.column == width then
      let (line, rest) := spanChars (!isBreak ·) s
      let (leading, rest) := match rest with
        | [] => ([], [])
        | b :: rest => ([b.char], rest)
      match blockBreaks? (some width) 0 rest with
      | none => none
      | some (trailing, _, rest) =>
        if rest.length < s.length then do
          let (more, last, rest) ← blockLines? folds width ⟨leading, trailing, x.isSpacing⟩ rest
          return (gap.text folds x.isSpacing ++ line ++ more, last, rest)
        else none
    else some ([], gap, s)
termination_by s.length

/-- Reads a block scalar behind its mark, in a block indented as given. -/
def block? (folds : Bool) (indent : Int) (s : List Spot) : Option (List Char × List Spot) := do
  let (chomping, increment, s) ← blockHeader? s
  let given := increment.map fun n => indent.toNat + n
  let (trailing, greatest, s) ← blockBreaks? given 0 s
  let width := given.getD (max greatest (max (indent + 1).toNat 1))
  let (text, last, s) ← blockLines? folds width { trailing } s
  return (match chomping with
    | .strip => text
    | .clip => text ++ last.leading
    | .keep => text ++ last.leading ++ last.trailing, s)

end Tabular.Yaml
