import SchemaDesign.Text.Join
import SchemaDesign.Text.Quoted

/-! Log files in a small directory tree. A file is opened after the directories above it were made, which
fails where something that is no directory is in the way. -/
namespace SchemaDesign.Log

/-- Where something stands: the names on the way from the working directory. Two points are a step up
beyond it, and an empty name is the root of all directories. -/
abbrev Place := List String

/-- The place above; the root is above itself. -/
def above (p : Place) : Place :=
  if p = [""] then p
  else if p = [] ∨ p.getLast? = some ".." then p ++ [".."]
  else p.dropLast

/-- A file path without empty parts and parts that stay in place. `root` holds the slashes that it begins
with: none, one, or exactly two. -/
structure Path where
  root : String
  parts : List String
deriving DecidableEq

namespace Path

/-- Other than two slashes count as one. -/
def rootOf (s : List Char) : String :=
  match (s.takeWhile (· == '/')).length with
  | 0 => ""
  | 2 => "//"
  | _ => "/"

def ofText (s : String) : Path :=
  { root := rootOf s.toList
    parts := ((s.toList.splitOnP (· == '/')).map String.ofList).filter fun part => part != "" && part != "." }

def text (p : Path) : String :=
  if p.root == "" && p.parts.isEmpty then "." else p.root ++ Text.joined "/" p.parts

def parent (p : Path) : Path := { p with parts := p.parts.dropLast }

/-- The place that a path starts from. -/
def start (p : Path) : Place := if p.root == "" then [] else [""]

/-- The place that a path leads to, provided the directories on the way are there. -/
def place (p : Path) : Place :=
  p.parts.foldl (fun here part => if part == ".." then above here else here ++ [part]) p.start

def hasNull (p : Path) : Bool := p.parts.any fun part => part.toList.contains '\x00'

end Path

/-- Why a directory cannot be made or a file cannot be opened. -/
inductive Trouble where
  | missing
  | alreadyThere
  | notADirectory
  | isADirectory
  | nameTooLong
  | nullCharacter
deriving DecidableEq

structure OpenFault where
  trouble : Trouble
  path : Path
deriving DecidableEq

def OpenFault.message (e : OpenFault) : String :=
  match e.trouble with
  | .missing => "[Errno 2] No such file or directory: " ++ Text.quoted e.path.text
  | .alreadyThere => "[Errno 17] File exists: " ++ Text.quoted e.path.text
  | .notADirectory => "[Errno 20] Not a directory: " ++ Text.quoted e.path.text
  | .isADirectory => "[Errno 21] Is a directory: " ++ Text.quoted e.path.text
  | .nameTooLong => "[Errno 36] File name too long: " ++ Text.quoted e.path.text
  | .nullCharacter => "embedded null byte"

/-- The directories that were made, and the files with their contents. -/
structure Files where
  directories : List Place
  contents : List (Place × String)
deriving DecidableEq

namespace Files

/-- The working directory, what is above it and the root are always there. -/
def isDirectory (f : Files) (p : Place) : Bool :=
  p.all (· == "..") || p == [""] || f.directories.contains p

def isFile (f : Files) (p : Place) : Bool := f.contents.any (·.1 == p)

/-- The bytes that a name has room for. -/
def maxName : Nat := 255

/-- The first number of bytes that a path has no room for. -/
def pathBound : Nat := 4096

/-- Why a place that is no directory cannot be passed through. -/
def obstacle (f : Files) (p : Place) : Trouble := if f.isFile p then .notADirectory else .missing

/-- Follows the names from a place, each but the last through a directory. -/
def follow (f : Files) (p : Place) : List String → Except Trouble Place
  | [] => .ok p
  | name :: rest =>
      if !f.isDirectory p then .error (f.obstacle p)
      else if name == ".." then f.follow (above p) rest
      else if maxName < name.utf8ByteSize then .error .nameTooLong
      else f.follow (p ++ [name]) rest

/-- Makes a single directory. -/
def made (f : Files) (p : Path) : Except Trouble Files := do
  if p.hasNull then throw .nullCharacter
  if pathBound ≤ p.text.utf8ByteSize then throw .nameTooLong
  match p.parts.getLast? with
  | none => throw .alreadyThere
  | some name =>
      let here ← f.follow p.start p.parts.dropLast
      if !f.isDirectory here then throw (f.obstacle here)
      if name == ".." then throw .alreadyThere
      if maxName < name.utf8ByteSize then throw .nameTooLong
      if f.isFile (here ++ [name]) || f.isDirectory (here ++ [name]) then throw .alreadyThere
      return { f with directories := (here ++ [name]) :: f.directories }

/-- Whether a path leads to a directory. -/
def leadsToDirectory (f : Files) (p : Path) : Bool :=
  match f.follow p.start p.parts with
  | .ok here => f.isDirectory here
  | .error _ => false

/-- The files after an attempt to make a directory; one that is there already will do. -/
def settled (f : Files) (p : Path) : Except Trouble Files → Files × Option OpenFault
  | .ok g => (g, none)
  | .error e => (f, if e = .alreadyThere ∧ f.leadsToDirectory p then none else some ⟨e, p⟩)

/-- Makes a directory and, where they are missing, those above it. What was made before a fault stays. -/
def ensured (f : Files) (p : Path) : Files × Option OpenFault :=
  match f.made p with
  | .error .missing =>
      if _h : p.parts = [] then (f, some ⟨.missing, p⟩)
      else
        match f.ensured p.parent with
        | (g, some e) => (g, some e)
        | (g, none) => g.settled p (g.made p)
  | r => f.settled p r
termination_by p.parts.length
decreasing_by
  have := List.length_pos_iff.mpr ‹_›
  simp only [Path.parent, List.length_dropLast]
  omega

/-- Makes the directories above a file and the file itself, which keeps what it holds already. -/
def opened (f : Files) (p : Path) : Files × Option OpenFault :=
  match f.ensured p.parent with
  | (g, some e) => (g, some e)
  | (g, none) =>
      let here := p.place
      if p.hasNull then (g, some ⟨.nullCharacter, p⟩)
      else if p.parts.any fun name => maxName < name.utf8ByteSize then (g, some ⟨.nameTooLong, p⟩)
      else if g.isDirectory here then (g, some ⟨.isADirectory, p⟩)
      else if g.isFile here then (g, none)
      else ({ g with contents := g.contents ++ [(here, "")] }, none)

def append (f : Files) (p : Place) (line : String) : Files :=
  { f with contents := f.contents.map fun c => if c.1 == p then (c.1, c.2 ++ line) else c }

/-- The files below the working directory, by their paths. -/
def listed (f : Files) : List (String × String) :=
  (f.contents.filter fun c => c.1.head? != some ".." && c.1.head? != some "").map fun c =>
    (Text.joined "/" c.1, c.2)

end Files

end SchemaDesign.Log
