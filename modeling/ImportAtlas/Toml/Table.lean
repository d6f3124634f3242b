import ImportAtlas.Config.Setting

/-!
# Toml/Table — tables while they are filled

A table may be opened by its header once only, and a table that dotted keys made cannot be opened at
all.  Headers may lead through tables that have none yet.
-/

namespace ImportAtlas.Toml

mutual

/-- A table while it is filled. -/
inductive Table
  /-- `isOpened` says whether it has a header or braces of its own, `isDotted` whether dotted keys
  made it. -/
  | mk (isOpened isDotted : Bool) (entries : List (String × Item))

/-- What a key of a table leads to. -/
inductive Item
  | value (setting : Setting)
  | table (t : Table)
  /-- A list of tables that have headers with two brackets. -/
  | tables (front : List Table) (last : Table)

end

namespace Table

/-- The entries of the table. -/
def entries : Table → List (String × Item)
  | mk _ _ es => es

/-- Whether the table has a header or braces of its own. -/
def isOpened : Table → Bool
  | mk opened _ _ => opened

/-- Whether dotted keys made the table. -/
def isDotted : Table → Bool
  | mk _ dotted _ => dotted

/-- The table without entries, with a header of its own. -/
def empty : Table := mk true false []

/-- What a key leads to. -/
def get? (t : Table) (key : String) : Option Item := t.entries.lookup key

/-- The table with something at a key, in the place of what was there. -/
def set (t : Table) (key : String) (item : Item) : Table :=
  mk t.isOpened t.isDotted ((t.entries.filter fun e => e.1 != key) ++ [(key, item)])

/-- Changes the table that a path leads to.  Tables that are missing on the way are made; `dotted`
says whether the path is a dotted key rather than a header. -/
def modifyAt (dotted : Bool) (change : Table → Option Table) : List String → Table → Option Table
  | [], t => change t
  | key :: rest, t =>
    match t.get? key with
    | none => (modifyAt dotted change rest (mk false dotted [])).map fun u => t.set key (.table u)
    | some (.value _) => none
    | some (.tables front last) =>
      (modifyAt dotted change rest last).map fun u => t.set key (.tables front u)
    | some (.table u) =>
      if dotted && u.isOpened then none
      else (modifyAt dotted change rest u).map fun u => t.set key (.table u)

/-- The table with a value at a dotted key, which must be new. -/
def insert (t : Table) (path : List String) (value : Setting) : Option Table :=
  match path.getLast? with
  | none => none
  | some key =>
    let above := path.dropLast
    t.modifyAt true (fun u =>
      if u.isDotted == above.isEmpty || (u.get? key).isSome then none
      else some (u.set key (.value value))) above

/-- The table after a header with one bracket. -/
def openTable (t : Table) (path : List String) : Option Table :=
  match path.getLast? with
  | none => none
  | some key =>
    t.modifyAt false (fun u =>
      match u.get? key with
      | none => some (u.set key (.table empty))
      | some (.table v) =>
        if v.isOpened || v.isDotted then none
        else some (u.set key (.table (mk true false v.entries)))
      | some _ => none) path.dropLast

/-- The table after a header with two brackets. -/
def openElement (t : Table) (path : List String) : Option Table :=
  match path.getLast? with
  | none => none
  | some key =>
    t.modifyAt false (fun u =>
      match u.get? key with
      | none => some (u.set key (.tables [] empty))
      | some (.tables front last) => some (u.set key (.tables (front ++ [last]) empty))
      | some _ => none) path.dropLast

end Table

mutual

/-- The value of a table that is filled. -/
def Table.setting : Table → Setting
  | .mk _ _ es => .table (entrySettings es)

/-- The value of what a key leads to. -/
def Item.setting : Item → Setting
  | .value setting => setting
  | .table t => t.setting
  | .tables front last => .list (tableSettings front ++ [last.setting])

/-- The values of entries. -/
def entrySettings : List (String × Item) → List (String × Setting)
  | [] => []
  | (key, item) :: rest => (key, item.setting) :: entrySettings rest

/-- The values of tables. -/
def tableSettings : List Table → List Setting
  | [] => []
  | t :: rest => t.setting :: tableSettings rest

end

end ImportAtlas.Toml
