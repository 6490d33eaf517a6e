import RenderTrace.Keyed
import RenderTrace.Path

/-!
# Files

Reading needs no more of a file system than the bytes at each path, or the reason
why there are none. A store is such a file system held as a value: the files and
folders below one folder, at which relative paths start.
-/

namespace RenderTrace

/-- Why a path cannot be read. -/
inductive FileError where
  | missing
  | isFolder
  | inFile
deriving DecidableEq, Repr

/-- The bytes at each path. -/
abbrev Files := Path → Except FileError (List UInt8)

/-- A file lies at the path. -/
def Files.isFile (files : Files) (p : Path) : Bool :=
  match files p with
  | .ok _ => true
  | .error _ => false

/-- The files and folders below one folder, by their parts. -/
structure Store where
  files : List (List String × List UInt8)
  folders : List (List String)

namespace Store

/-- A store of nothing. -/
def empty : Store :=
  ⟨[], []⟩

/-- A folder has these parts; the start always is one. -/
def isFolder (s : Store) (parts : List String) : Bool :=
  parts.isEmpty || s.folders.contains parts

/-- Follows parts from a folder. Every part but the last has to be a folder, and nothing is known
above the start. -/
def follow (s : Store) (current : List String) : List String → Except FileError (List String)
  | [] => .ok current
  | part :: rest =>
    if s.isFolder current then
      if part = ".." then
        if current = [] then .error .missing else s.follow current.dropLast rest
      else s.follow (current ++ [part]) rest
    else if (Keyed.get? current s.files).isSome then .error .inFile
    else .error .missing

/-- The bytes at each path; nothing lies at paths with a root. -/
def contents (s : Store) : Files := fun p =>
  if p.root = .relative then do
    let parts ← s.follow [] p.parts
    if s.isFolder parts then .error .isFolder
    else match Keyed.get? parts s.files with
      | some bytes => .ok bytes
      | none => .error .missing
  else .error .missing

/-- Adds a folder and the folders around it. -/
def addFolder (s : Store) (p : Path) : Store :=
  let parts := p.resolved.parts
  let around := (List.range parts.length).map fun n => parts.take (n + 1)
  { s with folders := s.folders ++ around.filter fun f => !s.folders.contains f }

/-- Writes a file, adding the folders around it. -/
def write (s : Store) (p : Path) (bytes : List UInt8) : Store :=
  let parts := p.resolved.parts
  let placed := s.addFolder ⟨p.root, parts.dropLast⟩
  { placed with files := Keyed.put parts bytes placed.files }

/-- Removes a file; the folders around it stay. -/
def delete (s : Store) (p : Path) : Store :=
  { s with files := s.files.filter fun e => e.1 != p.resolved.parts }

end Store

end RenderTrace
