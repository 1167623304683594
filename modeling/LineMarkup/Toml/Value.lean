import LineMarkup.Text.Basic

/-!
Values of TOML documents, and the tables that a document builds line by line. A table may be opened
only once; which later lines may add to it depends on how it came to be.
-/

namespace LineMarkup.Toml

set_option autoImplicit false

inductive Origin where
  /-- Opened by a header of its own. -/
  | header
  /-- Named only on the way to another table in a header. -/
  | implied
  /-- Named on the way to a key. -/
  | dotted
  /-- Written as a value; complete as it stands. -/
  | inline
deriving DecidableEq, Repr

inductive Value where
  | text (t : Text)
  | integer (n : Int)
  | float (literal : Text)
  | boolean (b : Bool)
  | time (literal : Text)
  | array (items : List Value)
  | table (origin : Origin) (entries : List (Text × Value))
  /-- An array of tables; the latest of them is open. -/
  | tables (latest : List (Text × Value)) (earlier : List (List (Text × Value)))

abbrev Entries := List (Text × Value)

namespace Entries

def get? (key : Text) : Entries → Option Value
  | [] => none
  | (k, v) :: rest => if k = key then some v else get? key rest

/-- Gives a key another value, or adds the key at the end. -/
def put (key : Text) (value : Value) : Entries → Entries
  | [] => [(key, value)]
  | (k, v) :: rest => if k = key then (k, value) :: rest else (k, v) :: put key value rest

/-- Changes the table at the end of a path of keys. Tables that are missing on the way are made. A path
with dots (`dotted`) does not pass through a table that has a header, and takes over those that headers
have only implied. -/
def update (dotted : Bool) (change : Origin → Entries → Option Entries) :
    List Text → Origin → Entries → Option Entries
  | [], origin, entries => change origin entries
  | key :: keys, _, entries =>
    match get? key entries with
    | none =>
      let origin : Origin := if dotted then .dotted else .implied
      (update dotted change keys origin []).map fun sub => put key (.table origin sub) entries
    | some (.table origin sub) =>
      let next : Origin := if dotted && origin = .implied then .dotted else origin
      if origin = .inline || (dotted && origin = .header) then none
      else (update dotted change keys next sub).map fun sub => put key (.table next sub) entries
    | some (.tables latest earlier) =>
      (update dotted change keys .header latest).map fun sub => put key (.tables sub earlier) entries
    | some _ => none

/-- Adds a key with its value. A key with dots needs a table that only such keys have made, and one
without dots any other. -/
def insert (path : List Text) (key : Text) (value : Value) (origin : Origin) (entries : Entries) :
    Option Entries :=
  let add (owner : Origin) (es : Entries) : Option Entries :=
    if decide (owner = .dotted) == path.isEmpty || (get? key es).isSome then none
    else some (put key value es)
  update true add path origin entries

/-- Opens the table of a header. -/
def openTable (path : List Text) (key : Text) (entries : Entries) : Option Entries :=
  let open? (_ : Origin) (es : Entries) : Option Entries :=
    match get? key es with
    | none => some (put key (.table .header []) es)
    | some (.table .implied sub) => some (put key (.table .header sub) es)
    | some _ => none
  update false open? path .header entries

/-- Opens one more table of an array of tables. -/
def openNext (path : List Text) (key : Text) (entries : Entries) : Option Entries :=
  let open? (_ : Origin) (es : Entries) : Option Entries :=
    match get? key es with
    | none => some (put key (.tables [] []) es)
    | some (.tables latest earlier) => some (put key (.tables [] (latest :: earlier)) es)
    | some _ => none
  update false open? path .header entries

end Entries

end LineMarkup.Toml
