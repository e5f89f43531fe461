import AdviceWeaver.Locator.Checksum
import AdviceWeaver.Locator.Error
import AdviceWeaver.Text.Utf8

/-!
# Archives

Zip archives with stored entries. The directory of an archive stands at its end, behind the entries,
and is found from an end record, which is searched for backwards because a comment may follow it.
Other data may precede the archive; the offsets in it then count from where the archive starts,
which is known because the directory ends where the end record begins. Numbers are little-endian.

An entry's content is checked against its checksum every time it is read.
-/

namespace AdviceWeaver

/-- An entry of an archive's directory. -/
structure ArchiveEntry where
  name : String
  isEncrypted : Bool
  method : Nat
  checksum : UInt32
  size : Nat
  /-- Where the entry's own header starts in the file. -/
  start : Nat
deriving DecidableEq, Repr, Inhabited

/-- An archive that was opened. -/
structure Archive where
  octets : Array UInt8
  entries : List ArchiveEntry
deriving Repr, Inhabited

namespace Archive

/-! ### Numbers -/

/-- The octet at an offset. -/
def octet (octets : Array UInt8) (at_ : Nat) : Except ArchiveError Nat :=
  match octets[at_]? with
  | some a => .ok a.toNat
  | none => .error .unexpectedEnd

/-- The number of 16 bits at an offset. -/
def u16 (octets : Array UInt8) (at_ : Nat) : Except ArchiveError Nat := do
  return (← octet octets at_) + (← octet octets (at_ + 1)) * 256

/-- The number of 32 bits at an offset. -/
def u32 (octets : Array UInt8) (at_ : Nat) : Except ArchiveError Nat := do
  return (← u16 octets at_) + (← u16 octets (at_ + 2)) * 65536

/-- The octets from an offset on, all of which have to be there. -/
def part (octets : Array UInt8) (start length : Nat) : Except ArchiveError Bytes :=
  if start + length ≤ octets.size then .ok (octets.extract start (start + length)).toList
  else .error .unexpectedEnd

/-! ### The end record -/

/-- The mark of the end record. -/
def endMark : Nat := 0x06054B50

/-- The mark of an entry of the directory. -/
def directoryMark : Nat := 0x02014B50

/-- The mark of an entry's own header. -/
def entryMark : Nat := 0x04034B50

/-- The length of the end record without its comment. -/
def endLength : Nat := 22

/-- The offset of the last end mark among the `tries` offsets from `at_` downwards. -/
def findEnd (octets : Array UInt8) (at_ : Nat) : Nat → Except ArchiveError Nat
  | 0 => .error (.invalid "Could not find central directory end")
  | tries + 1 => do
    if (← u32 octets at_) = endMark then return at_
    else if at_ = 0 then throw (.invalid "Could not find central directory end")
    else findEnd octets (at_ - 1) tries

/-- The entry of the directory at an offset of an archive that starts at `base`, and the offset
behind it. -/
def readEntry (octets : Array UInt8) (base at_ : Nat) :
    Except ArchiveError (ArchiveEntry × Nat) := do
  if (← u32 octets at_) ≠ directoryMark then throw (.invalid "Invalid Central Directory header")
  let flags ← u16 octets (at_ + 8)
  let method ← u16 octets (at_ + 10)
  let checksum ← u32 octets (at_ + 16)
  let size ← u32 octets (at_ + 20)
  let nameLength ← u16 octets (at_ + 28)
  let extraLength ← u16 octets (at_ + 30)
  let commentLength ← u16 octets (at_ + 32)
  let start ← u32 octets (at_ + 42)
  let name ← part octets (at_ + 46) nameLength
  let _ ← part octets (at_ + 46 + nameLength) (extraLength + commentLength)
  return ({ name := Text.Utf8.decode name, isEncrypted := flags % 2 = 1, method,
            checksum := UInt32.ofNat checksum, size, start := start + base },
          at_ + 46 + nameLength + extraLength + commentLength)

/-- The `count` entries of the directory from an offset on. -/
def readEntries (octets : Array UInt8) (base at_ : Nat) :
    Nat → Except ArchiveError (List ArchiveEntry)
  | 0 => .ok []
  | count + 1 => do
    let (entry, next) ← readEntry octets base at_
    return entry :: (← readEntries octets base next count)

/-- Opens a file as an archive. -/
def openFile (bytes : Bytes) : Except ArchiveError Archive := do
  let octets := bytes.toArray
  if octets.size < endLength then throw (.invalid "Invalid zip header")
  let end_ ← findEnd octets (octets.size - endLength) 65536
  let disk ← u16 octets (end_ + 4)
  let directoryDisk ← u16 octets (end_ + 6)
  let count ← u16 octets (end_ + 8)
  let size ← u32 octets (end_ + 12)
  let offset ← u32 octets (end_ + 16)
  let _ ← part octets (end_ + endLength) (← u16 octets (end_ + 20))
  if disk ≠ directoryDisk then
    throw (.unsupported "Support for multi-disk files is not implemented")
  if end_ < size + offset then throw (.invalid "Invalid central directory size or offset")
  let base := end_ - size - offset
  return ⟨octets, ← readEntries octets base (base + offset) count⟩

/-! ### Entries -/

/-- The content of an entry; it is cut off where the file ends. -/
def content (a : Archive) (e : ArchiveEntry) : Except ArchiveError Bytes := do
  if e.isEncrypted then throw (.unsupported "Password required to decrypt file")
  if (← u32 a.octets e.start) ≠ entryMark then throw (.invalid "Invalid local file header")
  let nameLength ← u16 a.octets (e.start + 26)
  let extraLength ← u16 a.octets (e.start + 28)
  if e.method ≠ 0 then throw (.unsupported "Compression method not supported")
  let start := e.start + 30 + nameLength + extraLength
  return (a.octets.extract start (start + e.size)).toList

/-- The entry of a name; of several ones the last. -/
def entry? (a : Archive) (name : String) : Option ArchiveEntry :=
  a.entries.reverse.find? fun e => e.name = name

end Archive

end AdviceWeaver
