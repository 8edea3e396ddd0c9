import ShardedLines.Text.Pieces

/-!
Paths: their components, and the order in which paths are listed.

A path is text. Its components leave out empty segments, and `.` everywhere but at the start of a
relative path, so that different texts may stand for one list of components. Its stages are the
texts of the paths that it runs along, one for each component.
-/

namespace ShardedLines

/-- A step of a path. -/
inductive Component where
  /-- The top of the file system, at the start of an absolute path. -/
  | root
  /-- A `.` at the start of a relative path. -/
  | here
  /-- A step up, written `..`. -/
  | up
  | name (name : String)
  deriving DecidableEq, Repr

namespace Component

/-- The order of the kinds of components. -/
def rank : Component → Nat
  | root => 0
  | here => 1
  | up => 2
  | name _ => 3

/-- Names come last, among each other by their characters, which is also the order of their UTF-8
bytes. -/
def compare (a b : Component) : Ordering :=
  match a, b with
  | name s, name t => Ord.compare s t
  | _, _ => Ord.compare a.rank b.rank

instance : Ord Component := ⟨compare⟩

end Component

/-- How a path ends, for a path whose last step is a name. -/
inductive PathEnding where
  /-- The path ends in its last name. -/
  | plain
  /-- The path goes on with a slash. -/
  | slash
  /-- The path goes on with a step that stays, as in `a/.`. -/
  | stay
  deriving DecidableEq, Repr

namespace Path

/-- The stretches between slashes. -/
def segments (path : String) : List String :=
  (pieces '/' path.toList).map String.ofList

def isAbsolute (path : String) : Bool :=
  path.toList.head? == some '/'

/-- The step that a segment stands for, where it stands for one. -/
def step? : String → Option Component
  | "" => none
  | "." => none
  | ".." => some .up
  | name => some (.name name)

def components (path : String) : List Component :=
  let steps := (segments path).filterMap step?
  if isAbsolute path then .root :: steps
  else if (segments path).head? == some "." then .here :: steps
  else steps

def ending (path : String) : PathEnding :=
  let backwards := (segments path).reverse
  match backwards.dropWhile (· == "") with
  | "." :: _ => .stay
  | _ => if backwards.head? == some "" then .slash else .plain

/-- The texts that lead to the steps of some segments, all starting with the text before them. -/
def stepTexts (before : String) : List String → List String
  | [] => []
  | segment :: rest =>
    let text := before ++ "/" ++ segment
    if (step? segment).isSome then text :: stepTexts text rest else stepTexts text rest

/-- The paths along a path, one for each of its components, as they are written in it; the shortest
first. -/
def stages (path : String) : List String :=
  match segments path with
  | [] => []
  | first :: rest =>
    if isAbsolute path then "/" :: stepTexts first rest
    else if first == "" then stepTexts first rest
    else first :: stepTexts first rest

/-- The path of a name in a directory. -/
def join (directory name : String) : String :=
  match directory.toList.getLast? with
  | none => name
  | some '/' => directory ++ name
  | some _ => directory ++ "/" ++ name

/-- Paths are listed component by component. -/
def compare (p q : String) : Ordering :=
  Ord.compare (components p) (components q)

/-- The paths in listing order; paths of the same components keep their places. -/
def sorted (paths : List String) : List String :=
  paths.mergeSort fun p q => (compare p q).isLE

theorem sorted_perm (paths : List String) : (sorted paths).Perm paths :=
  List.mergeSort_perm paths _

end Path

end ShardedLines
