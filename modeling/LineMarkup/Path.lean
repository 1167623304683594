import LineMarkup.Text.Basic

/-!
Paths of files, taken apart by their text alone. Parts are separated by slashes; repeated slashes,
slashes at the end and parts that are a single dot do not count, except for a dot at the very start.
-/

namespace LineMarkup

set_option autoImplicit false

abbrev Path := Text

namespace Path

/-- What a path starts from: the root, an explicit dot, or nothing written. -/
def start : Path → Path
  | '/' :: _ => ['/']
  | ['.'] => ['.']
  | '.' :: '/' :: _ => ['.']
  | _ => []

def body (p : Path) : Path := p.drop (start p).length

/-- Takes slashes and single dots off the end of a body, which is given and returned reversed. -/
def trimReversed : Path → Path
  | '/' :: r => trimReversed r
  | ['.'] => []
  | '.' :: '/' :: r => trimReversed r
  | r => r

def trimBody (b : Path) : Path := (trimReversed b.reverse).reverse

/-- The text after the last slash. -/
def lastPart (b : Path) : Path := (b.reverse.takeWhile (· ≠ '/')).reverse

/-- The text up to the last slash, which is kept. -/
def beforeLast (b : Path) : Path := (b.reverse.dropWhile (· ≠ '/')).reverse

/-- A path without what does not count at its end. -/
def core (p : Path) : Path := trimBody (body p)

def fileName? (p : Path) : Option Path :=
  let name := lastPart (core p)
  if name.isEmpty || name = ['.', '.'] then none else some name

/-- The path without its last part. The empty path and the root have no parent. -/
def parent? (p : Path) : Option Path :=
  if (core p).isEmpty then
    if start p = ['.'] then some [] else none
  else some (start p ++ trimBody (beforeLast (core p)))

/-- A file name before and after its last dot. A dot at the start of the name does not count. -/
def splitName (name : Path) : Path × Option Path :=
  let extension := (name.reverse.takeWhile (· ≠ '.')).reverse
  let stem := name.take (name.length - extension.length - 1)
  if stem.isEmpty || extension.length = name.length then (name, none) else (stem, some extension)

def stem? (p : Path) : Option Path := (fileName? p).map fun name => (splitName name).1

def extension? (p : Path) : Option Path := (fileName? p).bind fun name => (splitName name).2

/-- Gives the file another extension, or none if `extension` is empty. The old one is cut off the end
of the text first; where what is left names no file, it stays as it is. -/
def withExtension (p extension : Path) : Path :=
  let kept := match extension? p with
    | some old => p.take (p.length - old.length)
    | none => p
  match stem? kept with
  | none => kept
  | some stem =>
    start kept ++ beforeLast (core kept) ++ stem ++
      (if extension.isEmpty then [] else '.' :: extension)

def isAbsolute (p : Path) : Bool := p.head? = some '/'

/-- A path below a folder; an absolute path stays as it is. -/
def join (dir p : Path) : Path :=
  if isAbsolute p then p
  else if dir.isEmpty || dir.getLast? = some '/' then dir ++ p
  else dir ++ '/' :: p

inductive Part where
  | root
  | here
  | up
  | name (text : Text)
deriving DecidableEq, Repr

/-- The parts of a path that count, in order. -/
def parts (p : Path) : List Part :=
  let first : List Part := match start p with
    | ['/'] => [.root]
    | ['.'] => [.here]
    | _ => []
  let rest := (Text.splitOn '/' (body p)).filter fun s => !s.isEmpty && s ≠ ['.']
  first ++ rest.map fun s => if s = ['.', '.'] then .up else .name s

/-- A path and the folders above it, the nearest first. -/
def ancestors (p : Path) : List Path := go p.length p
where
  go : Nat → Path → List Path
    | 0, p => [p]
    | n + 1, p => match parent? p with
      | some q => p :: go n q
      | none => [p]

end Path

end LineMarkup
