import LineMarkup.Path

/-!
What the library asks of a file system: reading, writing, making folders, and telling what is at a path.
Everything that touches files is written over this interface, so that it runs on a disk and on a
tree in memory alike.
-/

namespace LineMarkup

set_option autoImplicit false

inductive FileError where
  | notFound
  | alreadyExists
  | notADirectory
  | isADirectory
  | nameTooLong
  | nulInPath
  | notText
  | other (text : String)
deriving DecidableEq, Repr

def FileError.message : FileError → String
  | .notFound => "No such file or directory (os error 2)"
  | .alreadyExists => "File exists (os error 17)"
  | .notADirectory => "Not a directory (os error 20)"
  | .isADirectory => "Is a directory (os error 21)"
  | .nameTooLong => "File name too long (os error 36)"
  | .nulInPath => "file name contained an unexpected NUL byte"
  | .notText => "stream did not contain valid UTF-8"
  | .other text => text

/-- A file holds text, or bytes that are no UTF-8. -/
inductive Content where
  | text (t : Text)
  | bytes (b : List UInt8)
deriving DecidableEq

def Content.ofBytes (bytes : ByteArray) : Content :=
  match String.fromUTF8? bytes with
  | some s => .text s.toList
  | none => .bytes bytes.toList

def Content.text? : Content → Except FileError Text
  | .text t => .ok t
  | .bytes _ => .error .notText

inductive FileKind where
  | file
  | folder
deriving DecidableEq, Repr

class Files (m : Type → Type) where
  read : Path → m (Except FileError Content)
  /-- Makes the file or replaces what it holds. -/
  write : Path → Text → m (Except FileError Unit)
  makeFolder : Path → m (Except FileError Unit)
  kind? : Path → m (Option FileKind)

namespace Files

variable {m : Type → Type} [Monad m] [Files m]

def readText (p : Path) : m (Except FileError Text) := do
  match ← read p with
  | .error e => pure (.error e)
  | .ok content => pure content.text?

def isThere (p : Path) : m Bool := do return (← kind? p).isSome

def isFolder (p : Path) : m Bool := do return (← kind? p) = some .folder

/-- Makes the first of the given folders, after those that follow it where they are missing. A folder
that is there already will do. -/
def makeChain : List Path → m (Except FileError Unit)
  | [] => pure (.error .notFound)
  | p :: above =>
    if p.isEmpty then pure (.ok ()) else do
      let settle (e : FileError) : m (Except FileError Unit) := do
        if ← isFolder p then pure (.ok ()) else pure (.error e)
      match ← makeFolder p with
      | .ok _ => pure (.ok ())
      | .error .notFound =>
        match ← makeChain above with
        | .error e => pure (.error e)
        | .ok _ =>
          match ← makeFolder p with
          | .ok _ => pure (.ok ())
          | .error e => settle e
      | .error e => settle e

/-- Makes a folder and those above it. -/
def makeFolders (p : Path) : m (Except FileError Unit) := makeChain p.ancestors

/-- The first of some paths at which there is something. -/
def firstThere? : List Path → m (Option Path)
  | [] => pure none
  | p :: rest => do
    if ← isThere p then pure (some p) else firstThere? rest

end Files

end LineMarkup
