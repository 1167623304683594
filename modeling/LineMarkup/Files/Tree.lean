import LineMarkup.Files

/-!
File systems in memory: a finite map from locations to entries, and the location that paths without
a slash at the start begin from. Paths are walked part by part, so every folder that a path names on
its way has to be there, also before a double dot.
-/

namespace LineMarkup

set_option autoImplicit false

/-- The names on the way from the root. -/
abbrev Location := List Text

inductive Entry where
  | folder
  | file (content : Content)
deriving DecidableEq

structure FileTree where
  here : Location
  entries : List (Location × Entry)

namespace FileTree

def lookup (at_ : Location) : List (Location × Entry) → Option Entry
  | [] => none
  | (l, e) :: rest => if l = at_ then some e else lookup at_ rest

/-- The root is always a folder. -/
def get? (t : FileTree) (at_ : Location) : Option Entry :=
  if at_ = [] then some .folder else lookup at_ t.entries

def insert (at_ : Location) (e : Entry) : List (Location × Entry) → List (Location × Entry)
  | [] => [(at_, e)]
  | (l, f) :: rest => if l = at_ then (at_, e) :: rest else (l, f) :: insert at_ e rest

def put (t : FileTree) (at_ : Location) (e : Entry) : FileTree :=
  { t with entries := insert at_ e t.entries }

theorem lookup_insert (at_ other : Location) (e : Entry) (entries : List (Location × Entry)) :
    lookup other (insert at_ e entries) = if other = at_ then some e else lookup other entries := by
  induction entries with
  | nil => simp [insert, lookup, eq_comm]
  | cons x rest ih =>
    obtain ⟨l, f⟩ := x
    by_cases hl : l = at_
    · subst hl
      by_cases ho : other = l
      · simp [insert, lookup, ho]
      · simp [insert, lookup, ho, Ne.symm ho]
    · by_cases ho : l = other
      · subst ho
        simp [insert, lookup, hl]
      · simp [insert, lookup, hl, ho, ih]

theorem get?_put (t : FileTree) {at_ : Location} (other : Location) (e : Entry) (h : at_ ≠ []) :
    (t.put at_ e).get? other = if other = at_ then some e else t.get? other := by
  by_cases ho : other = []
  · subst ho
    simp [get?, Ne.symm h]
  · simp [get?, put, ho, lookup_insert]

/-- The longest name of a file, in bytes. -/
def longestName : Nat := 255

/-- The longest path, in bytes. -/
def longestPath : Nat := 4095

def byteCount (t : Text) : Nat := t.foldl (fun n c => n + c.utf8Size) 0

def isTooLong (name : Text) : Bool := Nat.blt longestName (byteCount name)

def isFolder (t : FileTree) (at_ : Location) : Bool := t.get? at_ = some .folder

/-- Goes on from a location by one part of a path. -/
def step (t : FileTree) (at_ : Location) (part : Text) : Except FileError Location :=
  if !t.isFolder at_ then .error .notADirectory
  else if part = ['.'] then .ok at_
  else if part = ['.', '.'] then .ok at_.dropLast
  else if isTooLong part then .error .nameTooLong
  else if (t.get? (at_ ++ [part])).isSome then .ok (at_ ++ [part])
  else .error .notFound

def walk (t : FileTree) (start : Location) (parts : List Text) : Except FileError Location :=
  parts.foldlM t.step start

def start (t : FileTree) (p : Path) : Location := if p.isAbsolute then [] else t.here

def partsOf (p : Path) : List Text := (Text.splitOn '/' p).filter fun s => !s.isEmpty

def endsInSlash (p : Path) : Bool := p.getLast? = some '/'

/-- Paths that no file system takes. -/
def check (p : Path) : Except FileError Unit :=
  if p.contains '\x00' then .error .nulInPath
  else if p.isEmpty then .error .notFound
  else if longestPath < byteCount p then .error .nameTooLong
  else .ok ()

/-- The location of what is at a path. -/
def locate (t : FileTree) (p : Path) : Except FileError Location := do
  check p
  let found ← t.walk (t.start p) (partsOf p)
  if endsInSlash p && !t.isFolder found then .error .notADirectory else .ok found

/-- The folder in which a path puts something, and the name that it gives it; none if the path ends in
dots or is the root. -/
def place (t : FileTree) (p : Path) : Except FileError (Location × Option Text) := do
  check p
  let parts := partsOf p
  let folder ← t.walk (t.start p) parts.dropLast
  if !t.isFolder folder then .error .notADirectory
  else match parts.getLast? with
    | none => .ok (folder, none)
    | some name => .ok (folder, if name = ['.'] || name = ['.', '.'] then none else some name)

def kind? (t : FileTree) (p : Path) : Option FileKind :=
  match t.locate p with
  | .error _ => none
  | .ok found => match t.get? found with
    | some .folder => some .folder
    | some (.file _) => some .file
    | none => none

def read (t : FileTree) (p : Path) : Except FileError Content := do
  match t.get? (← t.locate p) with
  | some (.file content) => .ok content
  | some .folder => .error .isADirectory
  | none => .error .notFound

def write (t : FileTree) (p : Path) (content : Content) : Except FileError FileTree := do
  match ← t.place p with
  | (_, none) => .error .isADirectory
  | (folder, some name) =>
    if endsInSlash p || t.isFolder (folder ++ [name]) then .error .isADirectory
    else if isTooLong name then .error .nameTooLong
    else .ok (t.put (folder ++ [name]) (.file content))

def makeFolder (t : FileTree) (p : Path) : Except FileError FileTree := do
  match ← t.place p with
  | (_, none) => .error .alreadyExists
  | (folder, some name) =>
    if (t.get? (folder ++ [name])).isSome then .error .alreadyExists
    else if isTooLong name then .error .nameTooLong
    else .ok (t.put (folder ++ [name]) .folder)

/-- Takes over a changed tree; after an error the tree is as it was. -/
def commit (change : FileTree → Except FileError FileTree) : StateM FileTree (Except FileError Unit) :=
  fun t => match change t with
    | .ok next => (.ok (), next)
    | .error e => (.error e, t)

instance : Files (StateM FileTree) where
  read p := fun t => (t.read p, t)
  write p text := commit fun t => t.write p (.text text)
  makeFolder p := commit fun t => t.makeFolder p
  kind? p := fun t => (t.kind? p, t)

end FileTree

end LineMarkup
