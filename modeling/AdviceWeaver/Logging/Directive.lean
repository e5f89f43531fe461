import AdviceWeaver.Logging.ValuePattern
import AdviceWeaver.Session.Journal

/-!
# Directives of log filters

A directive is a level for all events, or a target, a span between brackets or both, and a level for
the events there; without a level all of them are shown. Between the brackets stands the name of the
span and, in braces, a field that it has to have, perhaps with a value. A target starts with a
letter, a number, a dash, a colon or an underscore. Levels are words in any case, or numbers.

Blanks around a directive do not count when its marks are looked for, but they do count in what
stands between the marks: this is taken from the text with its blanks, as far from its start as it is
from the first mark or letter. A level with a blank in front of it or behind it is no level.
-/

namespace AdviceWeaver

/-- A field that a span has to have. -/
structure FieldTest where
  name : String
  /-- The value of the field, or a pattern for it; any value will do if there is none. -/
  value : Option String
deriving DecidableEq, Repr, Inhabited

/-- What one directive of a filter lets through; no level shuts events out. -/
structure LogDirective where
  target : Option String
  span : Option String
  field : Option FieldTest
  level : Option Level
deriving DecidableEq, Repr, Inhabited

/-- The level of a word, where `off` is a level that shows nothing. Numbers may have a plus sign and
zeros in front. -/
def Level.parse? (word : List Char) : Option (Option Level) :=
  let digits := if word.head? = some '+' then word.tail else word
  if !digits.isEmpty && digits.all Char.isDigit then
    let number := digits.foldl (fun n d => 10 * n + (d.toNat - '0'.toNat)) 0
    if number = 0 then some none
    else (Level.all.find? fun l => l.rank = number).map some
  else
    let word := String.ofList (word.map Char.toLower)
    if word = "off" then some none
    else (Level.all.find? fun l => l.name = word).map some

namespace FieldTest

/-- Whether characters are an exponent or nothing. -/
def isExponent : List Char → Bool
  | [] => true
  | e :: cs =>
    let digits := if cs.head? = some '+' ∨ cs.head? = some '-' then cs.tail else cs
    e.toLower = 'e' && !digits.isEmpty && digits.all Char.isDigit

/-- Whether characters are a number without a sign: digits, with a point somewhere or without one,
and perhaps an exponent, or a word for what is no finite number. -/
def isNumeral (cs : List Char) : Bool :=
  let whole := cs.takeWhile Char.isDigit
  let rest := cs.dropWhile Char.isDigit
  let behind := if rest.head? = some '.' then rest.tail else []
  let fraction := behind.takeWhile Char.isDigit
  ["inf", "infinity", "nan"].contains (String.ofList (cs.map Char.toLower))
    || (!(whole.isEmpty && fraction.isEmpty)
      && isExponent (if rest.head? = some '.' then behind.dropWhile Char.isDigit else rest))

/-- Whether characters can stand for a value. Every number without a plus sign is a pattern, too. -/
def isValue : List Char → Bool
  | '+' :: cs => isNumeral cs
  | cs => isValuePattern cs

/-- The field in a text: a name, or a name and a value. -/
def parse? (text : List Char) : Option FieldTest :=
  match Text.splitAll '=' text with
  | [] => none
  | [name] => some ⟨String.ofList name, none⟩
  | name :: value :: _ =>
    if isValue value then some ⟨String.ofList name, some (String.ofList value)⟩ else none

end FieldTest

namespace LogDirective

/-- Whether a target can start with a character. -/
def startsTarget (c : Char) : Bool :=
  c = '-' || c = ':' || c = '_' || Text.isAlphanumeric c

/-- As many octets of `text` as `part` has, behind as many as `front` has. -/
def cut? (text front part : List Char) : Option String := do
  let behind ← Text.dropOctets? (Text.octets front) text
  return String.ofList (← Text.takeOctets? (Text.octets part) behind)

/-- The level at the end of a text, behind `front`. -/
def parseLevel? (text front : List Char) : Option (Option Level) := do
  match ← Text.dropOctets? (Text.octets front) text with
  | [] => some (some .trace)
  | word => Level.parse? word

/-- The directive with the level that may follow a span. -/
def parseEnd? (text front rest : List Char) (place : Option Level → LogDirective) :
    Option LogDirective :=
  match rest with
  | [] => some (place (some .trace))
  | '=' :: _ => (parseLevel? text (front ++ ['='])).map place
  | _ => none

/-- The directive with a field, which ends at the first closing brace, and what follows it. -/
def parseField? (text front rest : List Char) (target span : Option String) :
    Option LogDirective := do
  let part := rest.takeWhile (· ≠ '\x7d')
  match part, rest.drop part.length with
  | _ :: _, '\x7d' :: ']' :: rest =>
    let field ← FieldTest.parse? (← cut? text front part).toList
    parseEnd? text (front ++ part ++ ['\x7d', ']']) rest (⟨target, span, some field, ·⟩)
  | _, _ => none

/-- The directive with a span, whose name ends at the first bracket or brace, and what follows it.
In front of a brace the name may be missing. -/
def parseSpan? (text front rest : List Char) (target : Option String) : Option LogDirective := do
  let part := rest.takeWhile fun c => c ≠ ']' && c ≠ '\x7b'
  let span ← cut? text front part
  match rest.drop part.length with
  | [] => none
  | ']' :: rest => parseEnd? text (front ++ part ++ [']']) rest (⟨target, some span, none, ·⟩)
  | brace :: rest =>
    parseField? text (front ++ part ++ [brace]) rest target (if part.isEmpty then none else some span)

/-- The directive of a text without marks: a level, or else a target. -/
def ofWord (text : List Char) : LogDirective :=
  match Level.parse? text with
  | some level => ⟨none, none, none, level⟩
  | none => ⟨some (String.ofList text), none, none, some .trace⟩

/-- The directive in a text without commas. -/
def parse? (text : List Char) : Option LogDirective := do
  let shown := Text.trimChars text
  let part := shown.takeWhile fun c => c ≠ '=' && c ≠ '['
  match part, shown.drop part.length with
  | [], '[' :: rest => parseSpan? text ['['] rest none
  | [], _ => none
  | c :: _, rest =>
    if !startsTarget c then none
    else match rest with
      | [] => some (ofWord text)
      | '[' :: rest => parseSpan? text (part ++ ['[']) rest (some (← cut? text [] part))
      | rest =>
        let target ← cut? text [] part
        parseEnd? text part rest (⟨some target, none, none, ·⟩)

end LogDirective

end AdviceWeaver
