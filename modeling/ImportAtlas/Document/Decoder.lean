import ImportAtlas.Config
import ImportAtlas.Json.Reader
import ImportAtlas.Leaf

/-!
# Document/Decoder — modules from documents

A structure may be written as an object or as an array of its fields in order.  Of an object, fields
that are not known are passed over, and those that are may not repeat; a field that may be null may
be left out.  The spelling of a path is kept, but two spellings of one path are one key of a map.
Since an import clause is looked at twice, all of it has to be held, with what is passed over.
-/

namespace ImportAtlas

namespace Json

/-- A text. -/
def text? : Json → Option String
  | string text => some text
  | _ => none

/-- A truth value. -/
def bool? : Json → Option Bool
  | bool value => some value
  | _ => none

/-- A number of at most 64 bits. -/
def word? : Json → Option Nat
  | natural value => if value < Nat.pow 2 64 then some value else none
  | _ => none

/-- A list. -/
def list? {α : Type} (decode : Json → Option α) : Json → Option (List α)
  | array items => items.mapM decode
  | _ => none

/-- A value that may be null. -/
def nullable? {α : Type} (decode : Json → Option α) : Json → Option (Option α)
  | null => some none
  | document => (decode document).map some

/-- The value of a name among alternatives: the name itself, or an object that maps it to null. -/
def choice? {α : Type} (ofName? : String → Option α) : Json → Option α
  | string name => ofName? name
  | object [(name, null)] => ofName? name
  | _ => none

/-- The value of a field that may not repeat; nothing inside if it is left out. -/
def field? (fields : List (String × Json)) (name : String) : Option (Option Json) :=
  match fields.filter fun f => f.1 == name with
  | [] => some none
  | [f] => some (some f.2)
  | _ => none

/-- The fields of a structure with the given names. -/
def members? (names : List String) : Json → Option (List (Option Json))
  | object fields => names.mapM (field? fields)
  | array items => if items.length = names.length then some (items.map some) else none
  | _ => none

mutual

/-- How many levels of arrays and objects the document has, if all of it can be held. -/
def levels? : Json → Option Nat
  | void _ => none
  | array items => (itemLevels? items).map (· + 1)
  | object fields => (fieldLevels? fields).map (· + 1)
  | _ => some 0

/-- The levels of the items of an array. -/
def itemLevels? : List Json → Option Nat
  | [] => some 0
  | item :: items => do return Nat.max (← levels? item) (← itemLevels? items)

/-- The levels of the values of an object. -/
def fieldLevels? : List (String × Json) → Option Nat
  | [] => some 0
  | (_, value) :: fields => do return Nat.max (← levels? value) (← fieldLevels? fields)

end

/-- How many levels are held at most. -/
def levelLimit : Nat := 127

/-- Whether the document can be held, `outer` levels below the outermost one. -/
def isHeld (outer : Nat) (document : Json) : Bool :=
  document.levels?.any fun n => outer + n ≤ levelLimit

end Json

open Json

/-- The path that a document names. -/
def Path.ofJson? (document : Json) : Option Path := document.text?.map Path.mk

/-- The module that a document names. -/
def ModuleId.ofJson? (document : Json) : Option ModuleId :=
  (Path.ofJson? document).map ModuleId.mk

/-- The dialect that a document names. -/
def Dialect.ofJson? (document : Json) : Option Dialect := choice? ofName? document

namespace Binding

/-- A clause of the given kind, from its other fields. -/
def ofKind? (kind : String) (document : Json) : Option Binding :=
  match kind with
  | "named" =>
    match members? ["imported", "local"] document with
    | some [some imported, some localName] => do
      return .named (← imported.text?) (← localName.text?)
    | _ => none
  | "default" =>
    match members? ["local"] document with
    | some [some localName] => localName.text?.map .default
    | _ => none
  | "namespace" =>
    match members? ["local"] document with
    | some [some localName] => localName.text?.map .namespace
    | _ => none
  | _ => none

/-- A clause of an import statement, whatever else is in it.  Its kind is a field of its own, or
the first item. -/
def ofHeld? : Json → Option Binding
  | object fields =>
    match field? fields "kind" with
    | some (some (string kind)) => ofKind? kind (object (fields.filter fun f => f.1 != "kind"))
    | _ => none
  | array (string kind :: items) => ofKind? kind (array items)
  | _ => none

/-- A clause of an import statement, `outer` levels below the outermost one. -/
def ofInner? (outer : Nat) (document : Json) : Option Binding :=
  if document.isHeld outer then ofHeld? document else none

/-- A clause of an import statement. -/
def ofJson? (document : Json) : Option Binding := ofInner? 0 document

end Binding

/-- An import record, `outer` levels below the outermost one. -/
def ImportRecord.ofInner? (outer : Nat) (document : Json) : Option ImportRecord :=
  match members? ["specifiers", "mutual_reference", "resolved_node", "bindings"] document with
  | some [some specifiers, some isMutual, resolved, some bindings] => do
    return {
      specifiers := ← list? text? specifiers
      isMutual := ← bool? isMutual
      resolved := ← nullable? ModuleId.ofJson? (resolved.getD null)
      bindings := ← list? (Binding.ofInner? (outer + 2)) bindings }
  | _ => none

/-- An import record. -/
def ImportRecord.ofJson? (document : Json) : Option ImportRecord := ofInner? 0 document

/-- An export record. -/
def ExportRecord.ofJson? (document : Json) : Option ExportRecord :=
  match members? ["kind", "exported_name", "local_name", "reexport_source"] document with
  | some [some kind, some exportedName, localName, source] => do
    return {
      kind := ← choice? ExportKind.ofName? kind
      exportedName := ← text? exportedName
      localName := ← nullable? text? (localName.getD null)
      source := ← nullable? text? (source.getD null) }
  | _ => none

/-- The key that a map has for the module: the one that spells the same path, if there is any. -/
def ModuleId.keyAmong (keys : List ModuleId) (id : ModuleId) : ModuleId :=
  (keys.find? fun key => key.place == id.place).getD id

/-- The map of a list of pairs in which all spellings of one path are one key.  Of several pairs
with one key, the first gives the spelling and the place in the order, and the last the value. -/
def OrderedMap.ofSpellings {α : Type} (es : List (ModuleId × α)) : OrderedMap ModuleId α :=
  es.foldl (fun m e => m.insert (e.1.keyAmong m.keys) e.2) empty

/-- A map from modules. -/
def OrderedMap.ofJson? {α : Type} (decode : Json → Option α) :
    Json → Option (OrderedMap ModuleId α)
  | object fields =>
    (fields.mapM fun f => (decode f.2).map fun value => (ModuleId.mk ⟨f.1⟩, value)).map ofSpellings
  | _ => none

/-- A module. -/
def Leaf.ofJson? (document : Json) : Option Leaf :=
  match members? ["id", "dialect", "imports", "exports"] document with
  | some [some id, some dialect, some imports, some exports] => do
    return {
      id := ← ModuleId.ofJson? id
      dialect := ← Dialect.ofJson? dialect
      imports := ← OrderedMap.ofJson? (ImportRecord.ofInner? 2) imports
      exports := ← list? ExportRecord.ofJson? exports }
  | _ => none

/-- A configuration.  What is left out keeps its default. -/
def Config.ofJson? (document : Json) : Option Config :=
  let members := match document with
    | array items =>
      if items.length ≤ 2 then some [items[0]?, items[1]?] else none
    | document => members? ["vendor_dirs", "max_file_size"] document
  match members with
  | some [vendorDirs, maxFileSize] => do
    return {
      vendorDirs := ← match vendorDirs with
        | some dirs => list? text? dirs
        | none => some ({} : Config).vendorDirs
      maxFileSize := ← match maxFileSize with
        | some size => word? size
        | none => some ({} : Config).maxFileSize }
  | _ => none

end ImportAtlas
