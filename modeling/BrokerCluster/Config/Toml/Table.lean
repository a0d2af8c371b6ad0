import BrokerCluster.Config.Setting

/-!
# Tables of a TOML document

A table comes into being in one of three ways: it has a header of its own, it
lies on the way to another header, or it lies on the way of a dotted key. How it
came about decides what may still be added to it. A name is given a value once.
-/
namespace BrokerCluster.Config.Toml

/-- How a table came into being. -/
inductive Origin where
  | header
  /-- It lies on the way to a header, and may still get its own. -/
  | passed
  /-- It lies on the way of a dotted key. -/
  | dotted
  deriving DecidableEq, Repr

/-- What a name stands for while a document is read. -/
inductive Item where
  /-- A value; nothing can be added to it. -/
  | value (setting : Setting)
  | table (origin : Origin) (entries : List (String × Item))
  /-- A list of tables, the last of which can be added to. -/
  | tables (rows : List (List (String × Item)))

/-- The entries of a table, in the order in which their names first occur. -/
abbrev Entries := List (String × Item)

/-- Changes what a name stands for; `none` stands for a name that is new. -/
def Entries.modify (name : String) (change : Option Item → Option Item) : Entries → Option Entries
  | [] => (change none).map fun item => [(name, item)]
  | (n, item) :: rest =>
    if n = name then (change (some item)).map fun item => (n, item) :: rest
    else (Entries.modify name change rest).map ((n, item) :: ·)

def Entries.assign (entries : Entries) (path : List String) (name : String) (setting : Setting) :
    Option Entries :=
  match path with
  | [] => entries.modify name fun
    | none => some (.value setting)
    | some _ => none
  | step :: path => entries.modify step fun
    | none => (Entries.assign [] path name setting).map (.table .dotted)
    | some (.table origin inner) =>
      if origin = .header ∨ (path = [] ∧ origin ≠ .dotted) then none
      else (Entries.assign inner path name setting).map (.table origin)
    | some (.tables rows) =>
      match rows.getLast? with
      | some row =>
        if path = [] then none
        else (Entries.assign row path name setting).map fun row => .tables (rows.dropLast ++ [row])
      | none => none
    | some (.value _) => none

def Entries.assignAll (entries : Entries) (pairs : List (List String × Setting)) : Option Entries :=
  pairs.foldlM (fun entries (key, setting) =>
    match key.getLast? with
    | some name => entries.assign key.dropLast name setting
    | none => none) entries

/-- Changes the table that a header names. -/
def Entries.underHeader (entries : Entries) (path : List String) (name : String)
    (change : Option Item → Option Item) : Option Entries :=
  match path with
  | [] => entries.modify name change
  | step :: path => entries.modify step fun
    | none => (Entries.underHeader [] path name change).map (.table .passed)
    | some (.table origin inner) => (Entries.underHeader inner path name change).map (.table origin)
    | some (.tables rows) =>
      match rows.getLast? with
      | some row =>
        (Entries.underHeader row path name change).map fun row => .tables (rows.dropLast ++ [row])
      | none => none
    | some (.value _) => none

/-- What a header does to its name, given what stands below the header. -/
def openTable (fill : Entries → Option Entries) : Option Item → Option Item
  | none => (fill []).map (.table .header)
  | some (.table .passed entries) => (fill entries).map (.table .header)
  | some _ => none

/-- What a header in double brackets does to its name. -/
def openRow (fill : Entries → Option Entries) : Option Item → Option Item
  | none => (fill []).map fun row => .tables [row]
  | some (.tables rows) => (fill []).map fun row => .tables (rows ++ [row])
  | some _ => none

mutual

def Item.setting : Item → Setting
  | .value setting => setting
  | .table _ entries => .table (entrySettings entries)
  | .tables rows => .list (rowSettings rows)

def entrySettings : List (String × Item) → List (Option String × Setting)
  | [] => []
  | (name, item) :: rest => (some name, item.setting) :: entrySettings rest

def rowSettings : List (List (String × Item)) → List Setting
  | [] => []
  | row :: rest => .table (entrySettings row) :: rowSettings rest

end

end BrokerCluster.Config.Toml
