import LanguageClient.Text.CodePoint

/-!
# Paths

Paths are texts with components between slashes.  A normalized path has no empty
component, no `.`, and `..` only at the start of a relative path; exactly two
slashes at the start are kept as two, any other number counts as one.
-/

namespace LanguageClient.Path

def slash : CodePoint := CodePoint.ofChar '/'

def dot : CodePoint := CodePoint.ofChar '.'

/-- The slashes that a path starts with, as far as they matter. -/
def root (path : Text) : Text :=
  let slashes := path.takeWhile (· == slash)
  if slashes.length = 2 then slashes else slashes.take 1

/-- The path starts at the root. -/
def isAbsolute (path : Text) : Bool := path.head? == some slash

def components (path : Text) : List Text :=
  (Cut.pieces slash path).filter fun c => !c.isEmpty && c != [dot]

/-- One component more behind the components `done`, which are in reverse: `..` takes the last
one back where there is one to take. -/
def resolve (absolute : Bool) (done : List Text) (component : Text) : List Text :=
  if component = [dot, dot] then
    match done with
    | [] => if absolute then [] else [component]
    | last :: before => if last = [dot, dot] then component :: done else before
  else component :: done

/-- The path from its root and components; the empty one is `.`. -/
def assemble (root : Text) (components : List Text) : Text :=
  match root ++ Text.join [slash] components with
  | [] => [dot]
  | path => path

/-- The normalized path, found by text alone. -/
def normalize (path : Text) : Text :=
  let absolute := isAbsolute path
  assemble (root path) ((components path).foldl (resolve absolute) []).reverse

/-- A path below a directory; an absolute path stands for itself. -/
def join (directory path : Text) : Text :=
  if isAbsolute path then path
  else if directory.isEmpty || directory.getLast? == some slash then directory ++ path
  else directory ++ [slash] ++ path

/-- The normalized absolute path, seen from the directory `cwd`. -/
def absolute (cwd path : Text) : Text := normalize (join cwd path)

def baseName (path : Text) : Text := (Cut.pieces slash path).getLastD []

/-- The path without empty components and dots; `..` stays. -/
def tidy (path : Text) : Text := assemble (root path) (components path)

/-- The paths of the directories above a path, nearest first. -/
def parents (path : Text) : List Text :=
  let parts := components path
  (List.range parts.length).reverse.map fun n => assemble (root path) (parts.take n)

/-- The last component, or nothing. -/
def fileName (path : Text) : Text := (components path).getLastD []

/-- The last dot of the file name and what follows it, unless that dot is the first or the last
character. -/
def suffix (path : Text) : Text :=
  match Cut.last? dot (fileName path) with
  | some (stem, extension) => if stem.isEmpty || extension.isEmpty then [] else dot :: extension
  | none => []

/-- The suffix without its leading dot. -/
def extension (path : Text) : Text := (suffix path).dropWhile (· == dot)

end LanguageClient.Path
