import Blockwork.FileName
import Blockwork.Json.Decode
import Blockwork.Json.Writer
import Blockwork.Store.Basic

/-!
# Stores in files

A `StoreFile` holds its entries in memory and writes all of them to its file on every change.
The disk is part of its state: what is at the file's place, and whether writing works there at
the moment. An entry stays in memory even when the file could not be written.
-/

namespace Blockwork

/-- What is at a place on a disk. -/
inductive Place where
  | vacant
  | file (text : String)
  | directory
deriving DecidableEq, Inhabited

/-- A place on a disk, and whether files can be written there at the moment. -/
structure Disk where
  place : Place := .vacant
  writable : Bool := true
deriving DecidableEq, Inhabited

namespace Disk

/-- What a path leads to, given what is there if it leads to a file. Files can be written only
where a path leads to one. -/
def atPath (path : String) (place : Place) : Disk where
  place := if FileName.isStayPath path then .directory else place
  writable := FileName.isFilePath path

/-- The text of the file, when there is one. -/
def text? (d : Disk) : Option String :=
  match d.place with
  | .file text => some text
  | _ => none

/-- Writes the file, unless that does not work or a directory is in its place. -/
def write (d : Disk) (text : String) : Except Failure Unit × Disk :=
  if d.writable && d.place ≠ .directory then (.ok (), { d with place := .file text })
  else (.error .badFile, d)

end Disk

/-- A store whose entries are written to a file. -/
structure StoreFile where
  disk : Disk := {}
  entries : NameMap String := {}
deriving DecidableEq, Inhabited

namespace StoreFile

/-- The text of a file with these entries. -/
def fileText (entries : NameMap String) : String :=
  Json.pretty (.object (entries.entries.map fun entry => (entry.1, .string entry.2)))

/-- Reads the entries out of the text of a file. -/
def ofFileText (text : String) : Except Failure (NameMap String) :=
  let members := (Json.parse? text).bind Json.members?
  match members.bind (·.mapM fun member => member.2.text?.map fun value => (member.1, value)) with
  | some entries => .ok (.ofList entries)
  | none => .error .badDocument

/-- Opens the store at a place. Without a file there the store is empty. -/
def ofDisk (disk : Disk) : Except Failure StoreFile :=
  match disk.place with
  | .vacant => .ok { disk }
  | .file text => (ofFileText text).map fun entries => { disk, entries }
  | .directory => .error .badFile

/-- Opens the store at the same place again. -/
def reopened (s : StoreFile) : Except Failure StoreFile :=
  ofDisk s.disk

/-- Writes the entries to the file. -/
def save (s : StoreFile) : Except Failure Unit × StoreFile :=
  let (outcome, disk) := s.disk.write (fileText s.entries)
  (outcome, { s with disk })

/-- Puts a text under a key. -/
def put (s : StoreFile) (key text : String) : Except Failure Unit × StoreFile :=
  { s with entries := s.entries.insert key text }.save

/-- Takes the text under a key away. The file is written only if there was one. -/
def erase (s : StoreFile) (key : String) : Except Failure Unit × StoreFile :=
  if s.entries.contains key then { s with entries := s.entries.erase key }.save
  else (.ok (), s)

end StoreFile

instance : Store StoreFile where
  read s key := .ok (s.entries.get? key)
  write := StoreFile.put
  erase := StoreFile.erase

end Blockwork
