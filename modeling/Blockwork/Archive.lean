import Blockwork.Failure
import Blockwork.FileName

/-!
# Archives

A generated file leaves the program as an archive with a single entry. The archive is named
after the package, its entry has a checksum, and it is written into a directory under its own
name.
-/

namespace Blockwork

/-- A file inside an archive. -/
structure ArchiveEntry where
  name : String
  contents : String
deriving DecidableEq

/-- An archive and the name of its file. -/
structure Archive where
  name : String
  entries : List ArchiveEntry
deriving DecidableEq

/-- One bit of the cyclic redundancy check of polynomial 0xEDB88320. -/
def crcBit (crc : BitVec 32) : BitVec 32 :=
  if crc.getLsbD 0 then (crc >>> 1) ^^^ 0xEDB88320#32 else crc >>> 1

/-- One byte of the cyclic redundancy check: its eight bits, the lowest first. -/
def crcByte (crc : BitVec 32) (byte : UInt8) : BitVec 32 :=
  Nat.repeat crcBit 8 (crc ^^^ byte.toBitVec.setWidth 32)

/-- The 32-bit cyclic redundancy check of a list of bytes. -/
def crc32 (bytes : List UInt8) : Nat :=
  (~~~ (bytes.foldl crcByte 0xFFFFFFFF#32)).toNat

namespace ArchiveEntry

/-- The size of the contents in bytes. -/
def size (e : ArchiveEntry) : Nat :=
  e.contents.utf8ByteSize

/-- The checksum of the contents. -/
def checksum (e : ArchiveEntry) : Nat :=
  crc32 e.contents.toUTF8.toList

end ArchiveEntry

namespace Archive

/-- The name of the archive of a package: its path with dots for slashes, or `main` when there is
no path. -/
def nameFor (package : String) : String :=
  let bare := Text.trimWhere (· == '/') (Text.trimWhere Text.isBlank package.toList)
  let name := bare.map fun c => if c = '/' ∨ c = '\\' then '.' else c
  if name.isEmpty then "main.zip" else String.ofList name ++ ".zip"

/-- The archive of a package: its source text under the entry's name. -/
def ofSource (source package entryName : String) : Archive where
  name := nameFor package
  entries := [⟨entryName, source⟩]

/-- The path of the archive in a directory, if a file can have its name. -/
def pathIn (a : Archive) (directory : String) : Except Failure String :=
  if FileName.isPossible a.name then .ok s!"{directory}/{a.name}" else .error .badFile

end Archive

end Blockwork
