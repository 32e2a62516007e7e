import SmellCheck.Text.Split
/-!
# Folders

The files and folders around a place, as a value. Commands read and write
folders, so that a run of a command is a function. A path is followed part
by part, so that each part but the last must be a folder that is there;
`FilePath.ofText` gives the place that a path names if all of them are.
-/

namespace SmellCheck

/-- A path from a place, by its parts. The first part is a slash if the
path starts at the top, and parts of two dots lead further up. -/
abbrev FilePath := List String

namespace FilePath

/-- The top of all folders. -/
def top : FilePath := ["/"]

/-- The folder that a path is in. -/
def parent (path : FilePath) : FilePath :=
  if path = top then top
  else if path.isEmpty ∨ path.getLast? = some ".." then path ++ [".."]
  else path.dropLast

/-- Goes one part on: dots stay, and two dots go back. -/
def step (path : FilePath) (part : String) : FilePath :=
  if part = "" ∨ part = "." then path
  else if part = ".." then path.parent
  else path ++ [part]

/-- The parts of a path that is written as a text, with empty ones where
slashes follow each other or end it. -/
def parts (s : String) : List String :=
  (Text.splitOn '/' s.toList).map String.ofList

/-- Where the path that is written as a text starts. -/
def start (s : String) : FilePath :=
  if s.startsWith "/" then top else []

/-- The path that a text names, whatever is on its way. -/
def ofText (s : String) : FilePath :=
  (parts s).foldl step (start s)

/-- The text of a path. -/
def text : FilePath → String
  | [] => "."
  | "/" :: path => "/" ++ "/".intercalate path
  | path => "/".intercalate path

end FilePath

/-- What may be at a path. -/
inductive FileEntry where
  | file (text : String)
  | folder
  deriving DecidableEq

/-- What is in a folder and around it, by paths from it. -/
structure Folder where
  entries : List (FilePath × FileEntry) := []
  deriving DecidableEq

/-- What comes of reading a path. -/
inductive FileReading where
  | absent
  /-- Something is there or on the way that cannot be read. -/
  | blocked
  | text (s : String)
  deriving DecidableEq

/-- Where a path leads. -/
inductive Destination where
  | found (path : FilePath) (entry : FileEntry)
  | missing
  /-- A file is on the way, or the path is none that can be followed. -/
  | blocked
  deriving DecidableEq

/-- The most bytes of a name. -/
def maxNameBytes : Nat := 255

/-- The most bytes of a path. -/
def maxPathBytes : Nat := 4095

/-- The text can be followed as a path. -/
def isPathText (s : String) : Bool :=
  s.utf8ByteSize ≤ maxPathBytes && s.toList.all (·.toNat != 0)

namespace Folder

/-- What is at a path. The folder itself is at the empty one, and the
folders around it at the paths that lead up. -/
def entry? (f : Folder) (path : FilePath) : Option FileEntry :=
  if path.all (· = "..") then some .folder else f.entries.lookup path

/-- Follows parts from a path. -/
def follow (f : Folder) (path : FilePath) : List String → Destination
  | [] =>
    match f.entry? path with
    | some e => .found path e
    | none => .missing
  | part :: parts =>
    match f.entry? path with
    | none => .missing
    | some (.file _) => .blocked
    | some .folder =>
      if maxNameBytes < part.utf8ByteSize then .blocked
      else f.follow (path.step part) parts

/-- Follows the path that is written as a text. -/
def find (f : Folder) (s : String) : Destination :=
  if s = "" then .missing
  else if isPathText s then f.follow (.start s) (FilePath.parts s)
  else .blocked

/-- Reads the file that a text names. -/
def read (f : Folder) (s : String) : FileReading :=
  match f.find s with
  | .found _ (.file text) => .text text
  | .found _ .folder => .blocked
  | .missing => .absent
  | .blocked => .blocked

/-- Something is at the place that a text names, whatever is on its way. -/
def hasAround (f : Folder) (path : FilePath) : Bool :=
  match f.find path.text with
  | .found _ _ => true
  | _ => false

/-- The folder with something at a path. -/
def put (f : Folder) (path : FilePath) (entry : FileEntry) : Folder :=
  ⟨f.entries.filter (·.1 != path) ++ [(path, entry)]⟩

/-- Writes a file into a folder that is there; `none` if it cannot be. -/
def write? (f : Folder) (path : FilePath) (text : String) : Option Folder :=
  match f.find path.parent.text, f.find path.text with
  | .found _ .folder, .found _ (.file _) | .found _ .folder, .missing =>
    some (f.put path (.file text))
  | _, _ => none

/-- Makes the folders on the way to a path and at it; `none` if a file is
there. -/
def makeFolders? (f : Folder) (path : FilePath) : Option Folder :=
  (List.range path.length).foldlM (fun f n =>
    let step := path.take (n + 1)
    match f.entry? step with
    | some .folder => some f
    | some (.file _) => none
    | none => some (f.put step .folder)) f

/-- Makes the one folder that a text names; `none` if something is there
or the folder that it would be in is not. -/
def makeFolder? (f : Folder) (s : String) : Option Folder :=
  if !isPathText s then none
  else
    match ((FilePath.parts s).reverse.dropWhile (· = "")) with
    | [] => none
    | name :: before =>
      match f.follow (.start s) before.reverse with
      | .found path .folder =>
        let place := path.step name
        if name.utf8ByteSize ≤ maxNameBytes ∧ (f.entry? place).isNone then
          some (f.put place .folder)
        else none
      | _ => none

/-- The names in the folder that a text names, in order; `none` if there
is no such folder. -/
def names? (f : Folder) (s : String) : Option (List String) :=
  match f.find s with
  | .found path .folder =>
    let inside := f.entries.filterMap fun (p, _) =>
      if p != .top && p.dropLast == path then p.getLast? else none
    some (inside.mergeSort fun x y => x ≤ y)
  | _ => none

/-- What is around any folder: the top, with the folders that are usual
there, and the file that is always empty. -/
def surroundings : Folder :=
  let names := ["bin", "dev", "etc", "home", "lib", "opt", "proc", "root", "run", "sbin", "srv",
    "sys", "tmp", "usr", "var"]
  ⟨(.top, .folder) :: (["/", "dev", "null"], .file "") ::
    names.map fun name => (["/", name], .folder)⟩

end Folder

end SmellCheck
