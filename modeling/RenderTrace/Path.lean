/-!
# Paths

A path is a root and parts. Empty parts and single dots mean nothing and are
dropped when a path is read; two dots are kept, since what they mean depends on the
file system. Two leading slashes, and no other number above one, make a root of
their own.
-/

namespace RenderTrace

/-- Where a path begins. -/
inductive Path.Root where
  | relative
  | slash
  | doubleSlash
deriving DecidableEq, Repr

/-- A path. -/
structure Path where
  root : Path.Root
  parts : List String
deriving DecidableEq, Repr

namespace Path

/-- The pieces between slashes. -/
def splitSlashes : List Char → List (List Char)
  | [] => [[]]
  | '/' :: rest => [] :: splitSlashes rest
  | c :: rest =>
    match splitSlashes rest with
    | [] => [[c]]
    | piece :: pieces => (c :: piece) :: pieces

/-- The root that leading slashes make. -/
def rootOf (cs : List Char) : Root :=
  match (cs.takeWhile (· == '/')).length with
  | 0 => .relative
  | 2 => .doubleSlash
  | _ => .slash

/-- The path a text spells. -/
def ofText (s : String) : Path :=
  let cs := s.toList
  ⟨rootOf cs, (splitSlashes cs).filterMap fun piece =>
    if piece = [] ∨ piece = ['.'] then none else some (String.ofList piece)⟩

/-- The text of a root. -/
def Root.text : Root → String
  | .relative => ""
  | .slash => "/"
  | .doubleSlash => "//"

/-- The text of a path; that of the empty relative path is a dot. -/
def text (p : Path) : String :=
  if p.root = .relative ∧ p.parts = [] then "." else p.root.text ++ "/".intercalate p.parts

/-- The path `q` seen from `p`; a `q` with a root of its own stands alone. -/
def join (p q : Path) : Path :=
  if q.root = .relative then ⟨p.root, p.parts ++ q.parts⟩ else q

/-- Takes back the last part for every two dots, without asking the file system. Two dots that
lead above the start stay. -/
def resolvedParts (before : List String) : List String → List String
  | [] => before.reverse
  | part :: rest =>
    if part = ".." then
      match before with
      | [] => resolvedParts [part] rest
      | last :: earlier =>
        if last = ".." then resolvedParts (part :: last :: earlier) rest
        else resolvedParts earlier rest
    else resolvedParts (part :: before) rest

/-- The path without two dots, as far as that goes. -/
def resolved (p : Path) : Path :=
  ⟨p.root, resolvedParts [] p.parts⟩

/-- The path holds a null character, so that no file system can be asked for it. -/
def holdsNull (p : Path) : Bool :=
  p.parts.any fun part => part.toList.contains (Char.ofNat 0)

end Path

end RenderTrace
