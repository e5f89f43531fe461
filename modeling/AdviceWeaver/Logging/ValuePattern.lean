import AdviceWeaver.Text.Alphanumeric
import AdviceWeaver.Text.Hex
import AdviceWeaver.Text.Search

/-!
# Patterns for values

A pattern describes values by alternatives, groups, repetition and sets of characters in brackets.
Here it is only settled whether a text is a pattern; none is ever run. Sets that need tables of
characters — the categories, letters in either case, words — can be had for ASCII alone, and a
pattern has to say so by switching the flag `u` off.

The text is first taken apart into pieces, an escape being one piece, and then the pieces are read
from left to right. Each step consumes a piece, so the number of pieces bounds the reading.
-/

namespace AdviceWeaver

/-- A piece of a pattern: a character or an escape. -/
inductive PatternPiece where
  /-- A character as it is written, which may be a mark. -/
  | bare (c : Char)
  /-- An escape that stands for this character. -/
  | literal (c : Char)
  /-- An escape for an octet beyond ASCII, or for the character with this code. -/
  | octet (c : Char)
  /-- The digits, blanks or word characters, or all but these. -/
  | category (negated : Bool)
  | textEdge
  | wordEdge
deriving DecidableEq, Repr, Inhabited

namespace PatternPiece

/-- Escapes of control characters. -/
def controls : List (Char × Char) :=
  [('a', '\x07'), ('f', '\x0c'), ('t', '\t'), ('n', '\n'), ('r', '\r'), ('v', '\x0b')]

/-- The escape with one letter or mark. Marks stand for themselves; letters and digits without a
meaning are refused. -/
def ofEscape? (c : Char) : Option PatternPiece :=
  if c ∈ ['d', 's', 'w'] then some (.category false)
  else if c ∈ ['D', 'S', 'W'] then some (.category true)
  else if c ∈ ['A', 'z'] then some .textEdge
  else if c ∈ ['b', 'B', '<', '>'] then some .wordEdge
  else match controls.lookup c with
    | some control => some (.literal control)
    | none => if c.toNat < 0x80 && !c.isAlphanum then some (.literal c) else none

/-- The escape with the two digits of an octet. -/
def ofOctet (c : Char) : PatternPiece :=
  if c.toNat < 0x80 then .literal c else .octet c

/-- The pieces of a text, unless an escape in it has no meaning. -/
def ofChars? : List Char → Option (List PatternPiece)
  | [] => some []
  | '\\' :: 'x' :: a :: b :: cs => do
    return ofOctet (← Text.charOfHex? [a, b]) :: (← ofChars? cs)
  | '\\' :: 'u' :: a :: b :: c :: d :: cs => do
    return .literal (← Text.charOfHex? [a, b, c, d]) :: (← ofChars? cs)
  | '\\' :: 'U' :: a :: b :: c :: d :: e :: f :: g :: h :: cs => do
    return .literal (← Text.charOfHex? [a, b, c, d, e, f, g, h]) :: (← ofChars? cs)
  | ['\\'] => none
  | '\\' :: c :: cs => do return (← ofEscape? c) :: (← ofChars? cs)
  | c :: cs => do return .bare c :: (← ofChars? cs)

/-- The character that a piece stands for in a set. -/
def char? : PatternPiece → Option Char
  | .bare c | .literal c | .octet c => some c
  | .category _ | .textEdge | .wordEdge => none

/-- The character of a piece that is written as it is. -/
def bare? : PatternPiece → Option Char
  | .bare c => some c
  | _ => none

end PatternPiece

/-- The flags that decide what a pattern may hold. -/
structure PatternMode where
  /-- Characters are meant, not octets. -/
  unicode : Bool
  /-- Letters stand for both of their cases. -/
  caseless : Bool
  /-- Blanks and comments do not count. -/
  spaced : Bool
deriving DecidableEq, Repr, Inhabited

namespace PatternMode

/-- The mode that a pattern starts in. -/
def initial : PatternMode := ⟨true, false, false⟩

/-- Whether both cases of a letter would have to be looked up beyond ASCII. -/
def folds (m : PatternMode) : Bool :=
  m.unicode && m.caseless

/-- Whether a piece may stand outside of brackets. -/
def admits (m : PatternMode) : PatternPiece → Bool
  | .bare '^' | .bare '$' | .textEdge => true
  | .bare '.' => m.unicode
  | .bare _ | .literal _ => !m.folds
  | .octet _ => m.unicode && !m.folds
  | .category negated => !m.unicode && !negated
  | .wordEdge => !m.unicode

/-- Whether a piece may stand between brackets. -/
def admitsInSet (m : PatternMode) : PatternPiece → Bool
  | .bare c | .literal c | .octet c => m.unicode || c.toNat < 0x80
  | .category negated => !m.unicode && !negated
  | .textEdge | .wordEdge => false

/-- The mode with flags switched: those before a dash on, those behind it off. No flag comes twice,
and a dash is followed by a flag. -/
def switch? (m : PatternMode) (flags : List Char) : Option PatternMode :=
  let on := flags.takeWhile (· ≠ '-')
  let state (flag : Char) (old : Bool) := if flag ∈ flags then decide (flag ∈ on) else old
  if flags.Nodup ∧ flags.all ("-imsRuUx".toList.contains ·) ∧ flags.getLast? ≠ some '-' then
    some ⟨state 'u' m.unicode, state 'i' m.caseless, state 'x' m.spaced⟩
  else none

end PatternMode

namespace ValuePattern

/-- The names of sets of ASCII characters. -/
def setNames : List String :=
  ["alnum", "alpha", "ascii", "blank", "cntrl", "digit", "graph", "lower", "print", "punct",
   "space", "upper", "word", "xdigit"]

/-- What follows a named set such as `[:alpha:]`, given the pieces behind its bracket. -/
def namedSet? : List PatternPiece → Option (List PatternPiece)
  | .bare ':' :: ps =>
    let ps := if ps.head? = some (.bare '^') then ps.tail else ps
    let name := ps.takeWhile (· ≠ .bare ':')
    match ps.drop name.length with
    | .bare ':' :: .bare ']' :: rest => do
      if setNames.contains (String.ofList (← name.mapM PatternPiece.bare?)) then some rest
      else none
    | _ => none
  | _ => none

/-- The items of a set, given the pieces behind its bracket: a caret negates it, and dashes or one
closing bracket in front are items of it. -/
def openSet? (m : PatternMode) (ps : List PatternPiece) : Option (List PatternPiece) :=
  let negated := ps.head? = some (.bare '^')
  let ps := if negated then ps.tail else ps
  if m.folds || (negated && !m.unicode) then none
  else match ps with
    | .bare ']' :: rest => some rest
    | _ => some (ps.dropWhile (· = .bare '-'))

/-- Whether two pieces bound a range. -/
def isRange (m : PatternMode) (first last : PatternPiece) : Bool :=
  match first.char?, last.char? with
  | some a, some b => m.admitsInSet first && m.admitsInSet last && a.toNat ≤ b.toNat
  | _, _ => false

/-- What follows a set, given the pieces inside of it and the number of sets around it. -/
def closeSet? (m : PatternMode) :
    (fuel depth : Nat) → List PatternPiece → Option (List PatternPiece)
  | 0, _, _ | _, _, [] => none
  | _ + 1, 0, .bare ']' :: rest => some rest
  | fuel + 1, depth + 1, .bare ']' :: rest => closeSet? m fuel depth rest
  | fuel + 1, depth, .bare '[' :: rest =>
    match namedSet? rest with
    | some rest => closeSet? m fuel depth rest
    | none => do closeSet? m fuel (depth + 1) (← openSet? m rest)
  | fuel + 1, depth, .bare '&' :: .bare '&' :: rest
  | fuel + 1, depth, .bare '-' :: .bare '-' :: rest
  | fuel + 1, depth, .bare '~' :: .bare '~' :: rest => closeSet? m fuel depth rest
  | fuel + 1, depth, item :: rest =>
    let single := if m.admitsInSet item then closeSet? m fuel depth rest else none
    match rest with
    | .bare '-' :: .bare ']' :: _ | .bare '-' :: .bare '-' :: _ => single
    | .bare '-' :: last :: rest =>
      if isRange m item last then closeSet? m fuel depth rest else none
    | _ => single

/-- How a parenthesis goes on. -/
inductive Opening where
  /-- A group in a mode of its own, which may have a name. -/
  | group (mode : PatternMode) (name : Option (List Char))
  /-- No group, but flags for what follows in the group around it. -/
  | flags (mode : PatternMode)
deriving DecidableEq, Repr, Inhabited

/-- Whether characters can name a group. -/
def isGroupName : List Char → Bool
  | [] => false
  | c :: cs =>
    (c = '_' || Text.isAlphabetic c)
      && cs.all fun c => ['_', '.', '[', ']'].contains c || Text.isAlphanumeric c

/-- A group with a name, given the pieces of the name and those behind it. -/
def openNamed? (m : PatternMode) (ps : List PatternPiece) :
    Option (Opening × List PatternPiece) := do
  let name := ps.takeWhile (· ≠ .bare '>')
  let chars ← name.mapM PatternPiece.bare?
  match ps.drop name.length with
  | [] => none
  | _ :: rest => if isGroupName chars then some (.group m (some chars), rest) else none

/-- A group with flags or flags alone, given the pieces of the flags and those behind them. -/
def openFlagged? (m : PatternMode) (ps : List PatternPiece) :
    Option (Opening × List PatternPiece) := do
  let flags := ps.takeWhile fun p => p ≠ .bare ':' && p ≠ .bare ')'
  let inner ← m.switch? (← flags.mapM PatternPiece.bare?)
  match ps.drop flags.length with
  | [] => none
  | .bare ':' :: rest => some (.group inner none, rest)
  | _ :: rest => if flags.isEmpty then none else some (.flags inner, rest)

/-- What a parenthesis opens, given the pieces behind it. -/
def open? (m : PatternMode) : List PatternPiece → Option (Opening × List PatternPiece)
  | .bare '?' :: .bare 'P' :: .bare '<' :: rest | .bare '?' :: .bare '<' :: rest =>
    openNamed? m rest
  | .bare '?' :: rest => openFlagged? m rest
  | ps => some (.group m none, ps)

/-- Where a reader of a pattern stands. -/
structure Place where
  mode : PatternMode
  /-- The modes outside of the groups that are open. -/
  outer : List PatternMode
  /-- The names of groups so far. -/
  names : List (List Char)
  /-- Something that can be repeated stands right in front. -/
  repeatable : Bool
deriving DecidableEq, Repr, Inhabited

/-- Whether the pieces from a place on end a pattern. -/
def accepts : (fuel : Nat) → Place → List PatternPiece → Bool
  | 0, _, _ => false
  | _ + 1, at_, [] => at_.outer.isEmpty
  | fuel + 1, at_, p :: ps =>
    let behind := { at_ with repeatable := true }
    match p with
    | .bare '|' => accepts fuel { at_ with repeatable := false } ps
    | .bare '(' =>
      match open? at_.mode ps with
      | none => false
      | some (.flags inner, rest) => accepts fuel { at_ with mode := inner, repeatable := false } rest
      | some (.group inner name, rest) =>
        !name.any (at_.names.contains ·)
          && accepts fuel ⟨inner, at_.mode :: at_.outer, name.toList ++ at_.names, false⟩ rest
    | .bare ')' =>
      match at_.outer with
      | [] => false
      | mode :: outer => accepts fuel { behind with mode, outer } ps
    | .bare '[' =>
      match openSet? at_.mode ps with
      | none => false
      | some inside =>
        -- one more step than pieces, as the end is a step of its own
        match closeSet? at_.mode (inside.length + 1) 0 inside with
        | none => false
        | some rest => accepts fuel behind rest
    | .bare '\x7b' => false
    | .bare '*' | .bare '+' | .bare '?' =>
      at_.repeatable && accepts fuel behind (if ps.head? = some (.bare '?') then ps.tail else ps)
    | .bare '#' =>
      if at_.mode.spaced then accepts fuel at_ (ps.dropWhile (· ≠ .bare '\n'))
      else at_.mode.admits p && accepts fuel behind ps
    | .bare c =>
      if at_.mode.spaced && Text.isBlank c then accepts fuel at_ ps
      else at_.mode.admits p && accepts fuel behind ps
    | _ => at_.mode.admits p && accepts fuel behind ps

end ValuePattern

/-- Whether characters are a pattern for values. Counts of repetitions are not supported. -/
def isValuePattern (cs : List Char) : Bool :=
  match PatternPiece.ofChars? cs with
  | none => false
  | some ps => ValuePattern.accepts (ps.length + 1) ⟨.initial, [], [], false⟩ ps

end AdviceWeaver
