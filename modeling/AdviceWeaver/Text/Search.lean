/-!
# Searching, cutting and trimming

Prefixes, infixes, separators, parts by the octets in front of them, and blanks at the ends, on texts
as lists of characters.
-/

namespace AdviceWeaver.Text

/-- Whether `part` occurs in a list of characters. -/
def hasInfix (part : List Char) : List Char → Bool
  | [] => part.isEmpty
  | c :: rest => part.isPrefixOf (c :: rest) || hasInfix part rest

/-- Whether `text` starts with `part`. -/
def startsWith (text part : String) : Bool :=
  part.toList.isPrefixOf text.toList

/-- Whether `text` ends with `part`. -/
def endsWith (text part : String) : Bool :=
  part.toList.isSuffixOf text.toList

/-- Whether `part` occurs in `text`. -/
def contains (text part : String) : Bool :=
  hasInfix part.toList text.toList

/-- `text` with every `old` replaced by `new`. -/
def replaceChar (old new : Char) (text : String) : String :=
  text.map fun c => if c = old then new else c

/-- What stands in front of the first `separator` and behind it. -/
def splitFirst (separator : Char) (cs : List Char) : Option (List Char × List Char) :=
  match cs.dropWhile (· ≠ separator) with
  | [] => none
  | _ :: back => some (cs.takeWhile (· ≠ separator), back)

/-- What stands in front of the last `separator` and behind it. -/
def splitLast (separator : Char) (cs : List Char) : Option (List Char × List Char) :=
  (splitFirst separator cs.reverse).map fun (back, front) => (front.reverse, back.reverse)

/-- The parts between separators, at least one. -/
def splitAll (separator : Char) (cs : List Char) : List (List Char) :=
  cs.foldr (fun c parts =>
    match parts with
    | [] => [[c]]
    | part :: rest => if c = separator then [] :: part :: rest else (c :: part) :: rest) [[]]

/-- The number of octets of characters in UTF-8. -/
def octets : List Char → Nat
  | [] => 0
  | c :: cs => c.utf8Size + octets cs

/-- What stands behind the first `n` octets, if a character ends there. -/
def dropOctets? (n : Nat) : List Char → Option (List Char)
  | [] => if n = 0 then some [] else none
  | c :: cs =>
    if n = 0 then some (c :: cs)
    else if n < c.utf8Size then none
    else dropOctets? (n - c.utf8Size) cs

/-- What the first `n` octets hold, if a character ends there. -/
def takeOctets? (n : Nat) : List Char → Option (List Char)
  | [] => if n = 0 then some [] else none
  | c :: cs =>
    if n = 0 then some []
    else if n < c.utf8Size then none
    else (takeOctets? (n - c.utf8Size) cs).map (c :: ·)

/-- The characters with the property White_Space. -/
def isBlank (c : Char) : Bool :=
  (0x09 ≤ c.toNat && c.toNat ≤ 0x0D) || c.toNat = 0x20 || c.toNat = 0x85 || c.toNat = 0xA0
    || c.toNat = 0x1680 || (0x2000 ≤ c.toNat && c.toNat ≤ 0x200A) || c.toNat = 0x2028
    || c.toNat = 0x2029 || c.toNat = 0x202F || c.toNat = 0x205F || c.toNat = 0x3000

/-- A list without the items at its end that have a property. -/
def dropEndWhile {α : Type} (p : α → Bool) (l : List α) : List α :=
  (l.reverse.dropWhile p).reverse

/-- A list of characters without the blanks at its ends. -/
def trimChars (cs : List Char) : List Char :=
  dropEndWhile isBlank (cs.dropWhile isBlank)

/-- A text without the blanks at its ends. -/
def trim (text : String) : String :=
  String.ofList (trimChars text.toList)

end AdviceWeaver.Text
