import AdviceWeaver.Bytes
import AdviceWeaver.ClassFile.Error

/-!
# Reading from a prefix

A reader takes what it needs from the front of the remaining bytes and fails at the first defect. It
keeps the offset in the whole file, so that spans can be recorded inside nested content too.
-/

namespace AdviceWeaver

/-- Where reading stands: the offset in the file, and what is left. -/
structure Cursor where
  offset : Nat
  rest : Bytes
deriving Repr

/-- A step of reading. -/
abbrev Reader := StateT Cursor (Except FormatError)

namespace Reader

/-- The next octet. -/
def u1 : Reader UInt8 := fun c =>
  match c.rest with
  | a :: rest => .ok (a, ⟨c.offset + 1, rest⟩)
  | [] => .error .unexpectedEnd

/-- The next two octets as a number. -/
def u2 : Reader UInt16 := fun c =>
  match c.rest with
  | a :: b :: rest => .ok (Bytes.toUInt16 a b, ⟨c.offset + 2, rest⟩)
  | _ => .error .unexpectedEnd

/-- The next four octets as a number. -/
def u4 : Reader UInt32 := fun s =>
  match s.rest with
  | a :: b :: c :: d :: rest => .ok (Bytes.toUInt32 a b c d, ⟨s.offset + 4, rest⟩)
  | _ => .error .unexpectedEnd

/-- The next `n` octets. -/
def bytes (n : Nat) : Reader Bytes := fun c =>
  match Bytes.split? n c.rest with
  | some (head, rest) => .ok (head, ⟨c.offset + n, rest⟩)
  | none => .error .unexpectedEnd

/-- The offset in the file. -/
def offset : Reader Nat := fun c => .ok (c.offset, c)

/-- `n` items behind those of `done`, which are kept in reverse. -/
def timesOnto {α : Type} (item : Reader α) : Nat → List α → Reader (List α)
  | 0, done => fun c => .ok (done.reverse, c)
  | n + 1, done => fun c =>
    match item c with
    | .ok (a, c') => timesOnto item n (a :: done) c'
    | .error e => .error e

/-- `n` items in a row. -/
def times {α : Type} (n : Nat) (item : Reader α) : Reader (List α) :=
  timesOnto item n []

/-- A list of items after the number of them. -/
def counted {α : Type} (item : Reader α) : Reader (List α) := do
  let n ← u2
  times n.toNat item

/-- Reads `content`, which starts at `start` in the file; what `inner` leaves of it is passed
over. -/
def within {α : Type} (start : Nat) (content : Bytes) (inner : Reader α) : Reader α := fun c =>
  match inner ⟨start, content⟩ with
  | .ok (a, _) => .ok (a, c)
  | .error e => .error e

end Reader

end AdviceWeaver
