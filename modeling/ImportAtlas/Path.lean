/-!
# Path — names of files, and what they mean without looking at the disk

A path is a text.  Its components are what lies between its slashes; `clean` removes the components
that do not lead anywhere, so that two spellings of one place become equal.
-/

namespace ImportAtlas

/-- The name of a file or directory. -/
structure Path where
  text : String
deriving DecidableEq, Repr, Inhabited, Hashable

namespace Path

instance : ToString Path := ⟨text⟩

/-- The pieces between the slashes of a text; a text without a slash is one piece. -/
def splitSlash : List Char → List (List Char)
  | [] => [[]]
  | c :: r =>
    if c == '/' then [] :: splitSlash r
    else match splitSlash r with
      | [] => [[c]]
      | piece :: pieces => (c :: piece) :: pieces

/-- The pieces between the slashes of a path. -/
def pieces (p : Path) : List String := (splitSlash p.text.toList).map String.ofList

/-- Whether the path starts at the root. -/
def isAbsolute (p : Path) : Bool := p.text.toList.head? == some '/'

/-! ## Components -/

/-- A step of a path. -/
inductive Component
  | root
  /-- The directory itself; it counts only at the start of a path. -/
  | here
  /-- The directory above. -/
  | up
  /-- An entry of the directory. -/
  | name (text : String)
deriving DecidableEq, Repr

/-- The step that a piece behind the first stands for, if any. -/
def Component.ofPiece? (piece : String) : Option Component :=
  if piece == "" || piece == "." then none
  else if piece == ".." then some .up
  else some (.name piece)

/-- The first step of a path that is not one of its pieces in general. -/
def leading (p : Path) : List Component :=
  if p.isAbsolute then [.root]
  else if p.pieces.head? == some "." then [.here]
  else []

/-- **The components of a path.**  Repeated slashes and inner dots vanish; two dots stay. -/
def components (p : Path) : List Component := p.leading ++ p.pieces.filterMap Component.ofPiece?

/-- The last component, if it is a name. -/
def fileName? (p : Path) : Option String :=
  match p.components.getLast? with
  | some (.name text) => some text
  | _ => none

/-- What a file name has behind its last dot.  A dot at its start separates nothing. -/
def extensionOfName? (name : String) : Option String :=
  let reversed := name.toList.reverse
  let ending := reversed.takeWhile (· != '.')
  match reversed.drop ending.length with
  | '.' :: _ :: _ => some (String.ofList ending.reverse)
  | _ => none

/-- The extension of the last component, without its dot. -/
def extension? (p : Path) : Option String := p.fileName?.bind extensionOfName?

/-! ## Parents -/

/-- Whether the piece at the given place is a component of the path. -/
def isStep (absolute : Bool) (place : Nat) (piece : String) : Bool :=
  (Component.ofPiece? piece).isSome || (!absolute && place == 0 && piece == ".")

/-- The pieces up to the last component, that component included. -/
def upToLastStep (absolute : Bool) (ps : List String) : List String :=
  let kept := ps.zipIdx.reverse.dropWhile fun (piece, place) => !isStep absolute place piece
  (kept.map Prod.fst).reverse

/-- The path without its last component, spelled as the path is; the root has no parent. -/
def parent? (p : Path) : Option Path :=
  let steps := upToLastStep p.isAbsolute p.pieces
  if steps.isEmpty then none
  else
    let above := upToLastStep p.isAbsolute steps.dropLast
    if p.isAbsolute && above.isEmpty then some ⟨"/"⟩
    else some ⟨"/".intercalate above⟩

/-- The parent, or the empty path where there is none. -/
def parent (p : Path) : Path := p.parent?.getD ⟨""⟩

/-! ## Joining -/

/-- The path `q` as seen from `p`: an absolute path stays as it is. -/
def join (p : Path) (q : Path) : Path :=
  if q.isAbsolute then q
  else if p.text == "" || p.text.toList.getLast? == some '/' then ⟨p.text ++ q.text⟩
  else ⟨p.text ++ "/" ++ q.text⟩

/-- The entry of a directory with the given name. -/
def child (p : Path) (name : String) : Path := p.join ⟨name⟩

/-- The path with `.` and an extension behind it; a dot that it has already stays. -/
def appendExtension (p : Path) (extension : String) : Path := ⟨p.text ++ "." ++ extension⟩

/-! ## Cleaning -/

/-- Where a path leads: from the root or not, and by which pieces.  Two dots occur only at the
start of a route that does not begin at the root. -/
structure Route where
  absolute : Bool
  steps : List String
deriving DecidableEq, Repr

/-- One more piece at the end of a route; `steps` is backwards. -/
def extendRoute (absolute : Bool) (steps : List String) (piece : String) : List String :=
  if piece == "" || piece == "." then steps
  else if piece == ".." then
    match steps with
    | [] => if absolute then [] else [".."]
    | last :: before => if last == ".." then ".." :: steps else before
  else piece :: steps

/-- The route of a path. -/
def route (p : Path) : Route :=
  ⟨p.isAbsolute, (p.pieces.foldl (extendRoute p.isAbsolute) []).reverse⟩

/-- The path of a route; one that leads nowhere is a dot. -/
def Route.path (r : Route) : Path :=
  if r.absolute then ⟨"/" ++ "/".intercalate r.steps⟩
  else if r.steps.isEmpty then ⟨"."⟩
  else ⟨"/".intercalate r.steps⟩

/-- **The shortest spelling of a path** that leads to the same place, as far as the text tells:
no dots, no repeated slashes, and two dots only where nothing stands before them. -/
def clean (p : Path) : Path := p.route.path

/-- The directories above a path, the outermost first. -/
def ancestors (p : Path) : List Path :=
  (List.range p.route.steps.length).map fun n =>
    Route.path ⟨p.route.absolute, p.route.steps.take n⟩

end Path

end ImportAtlas
