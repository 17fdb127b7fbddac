import ScopeMetrics.Path.Fault
import ScopeMetrics.Tree.Source
import ScopeMetrics.Value

/-!
# Disks

Files and folders as a value.  A file is known by its bytes, by the syntax tree that a parser gives
for them, and by what it says when it is read as a configuration document.
-/

namespace ScopeMetrics

/-- The tree of a source without syntax. -/
def Node.blank : Node := .mk ⟨"", true, false, 0, 0, none⟩ []

/-- A unit of source code with its syntax tree. -/
structure CodeUnit where
  source : Source := ⟨[]⟩
  tree : Node := .blank

/-- A file: its code, and the document in it or why there is none. -/
structure File extends CodeUnit where
  document : Except String Value := .ok .null

/-- What a name in a folder stands for. -/
inductive Entry where
  | file (f : File)
  | folder (entries : List (String × Entry))

namespace Entry

def isFile : Entry → Bool
  | .file _ => true
  | .folder _ => false

def isFolder (e : Entry) : Bool := !e.isFile

/-- Follows the parts of a path.  The list holds the entry reached and the folders above it. -/
def follow : List Entry → List String → Except PathFault Entry
  | [], _ => .error .missing
  | e :: _, [] => .ok e
  | .file _ :: _, _ :: _ => .error .notDirectory
  | .folder es :: above, part :: parts =>
    if part == ".." then follow (if above.isEmpty then [.folder es] else above) parts
    else if Path.longestName < part.utf8ByteSize then .error .nameTooLong
    else
      match es.lookup part with
      | none => .error .missing
      | some e => follow (e :: .folder es :: above) parts

/-- Gives a name in a folder a new meaning. -/
def replace (name : String) (new : Entry) : List (String × Entry) → List (String × Entry)
  | [] => [(name, new)]
  | (n, e) :: es => if n = name then (n, new) :: es else (n, e) :: replace name new es

/-- Puts an entry at a path, with the folders that lead to it.  A folder that is put where one is
already leaves it as it is. -/
def put (new : Entry) : List String → Entry → Entry
  | [], old =>
    match new, old with
    | .folder [], .folder _ => old
    | _, _ => new
  | part :: parts, .folder es =>
    .folder (replace part (put new parts ((es.lookup part).getD (.folder []))) es)
  | part :: parts, .file _ => .folder [(part, put new parts (.folder []))]

mutual

/-- The paths of the files inside an entry that stands at a path. -/
def filePaths (path : List String) : Entry → List (List String)
  | .file _ => [path]
  | .folder es => filePathsAll path es

def filePathsAll (path : List String) : List (String × Entry) → List (List String)
  | [] => []
  | (name, e) :: es => e.filePaths (path ++ [name]) ++ filePathsAll path es

end

end Entry

/-- Files and folders, seen from a working folder. -/
structure Disk where
  root : Entry := .folder []
  workingFolder : Path := ⟨"/", []⟩

namespace Disk

/-- The parts of a path without those that lead back up. -/
def settled (parts : List String) : List String :=
  (parts.foldl (fun acc p => if p == ".." then acc.tail else p :: acc) []).reverse

/-- The parts of a path from the root. -/
def absolute (d : Disk) (p : Path) : List String := (d.workingFolder.join p).parts

/-- What is at a path, or why nothing can be read there. -/
def find (d : Disk) (p : Path) : Except PathFault Entry :=
  match p.fault? with
  | some fault => .error fault
  | none => Entry.follow [d.root] (d.absolute p)

def has (d : Disk) (p : Path) : Bool :=
  match d.find p with
  | .ok _ => true
  | .error _ => false

def isFile (d : Disk) (p : Path) : Bool :=
  match d.find p with
  | .ok e => e.isFile
  | .error _ => false

def isFolder (d : Disk) (p : Path) : Bool :=
  match d.find p with
  | .ok e => e.isFolder
  | .error _ => false

/-- The file at a path. -/
def read (d : Disk) (p : Path) : Except PathFault File :=
  match d.find p with
  | .error fault => .error fault
  | .ok (.folder _) => .error .isDirectory
  | .ok (.file f) => .ok f

/-- The files below a folder, in the order of their paths. -/
def filesBelow (d : Disk) (p : Path) : List Path :=
  match d.find p with
  | .error _ => []
  | .ok e => ((e.filePaths []).map fun parts => p.join ⟨"", parts⟩).mergeSort Path.le

/-- Puts a file at a path. -/
def write (d : Disk) (p : Path) (f : File) : Disk :=
  { d with root := Entry.put (.file f) (settled (d.absolute p)) d.root }

/-- Makes sure that there is a folder at a path. -/
def makeFolder (d : Disk) (p : Path) : Disk :=
  { d with root := Entry.put (.folder []) (settled (d.absolute p)) d.root }

/-- Makes a folder inside one that is there. -/
def addFolder (d : Disk) (p : Path) : Except PathFault Disk :=
  match d.find p with
  | .ok _ => .error .occupied
  | .error .missing =>
    match d.find p.parent with
    | .ok _ => .ok (d.makeFolder p)
    | .error fault => .error fault
  | .error fault => .error fault

/-- Makes a folder, unless it is there already. -/
def ensureFolder (d : Disk) (p : Path) : Except PathFault Disk :=
  match d.addFolder p with
  | .ok d' => .ok d'
  | .error fault => if d.isFolder p then .ok d else .error fault

/-- Makes a folder and those above it that are missing.  The parts of its path are given from the
last to the first. -/
def ensureFolders (d : Disk) (anchor : String) : List String → Except BadPath Disk
  | [] => (d.ensureFolder ⟨anchor, []⟩).mapError (⟨⟨anchor, []⟩, ·⟩)
  | part :: above => do
    let p : Path := ⟨anchor, (part :: above).reverse⟩
    match d.ensureFolder p with
    | .ok d' => return d'
    | .error .missing =>
      let d ← ensureFolders d anchor above
      (d.ensureFolder p).mapError (⟨p, ·⟩)
    | .error fault => throw ⟨p, fault⟩

/-- Makes sure that there is a file at a path. -/
def touch (d : Disk) (p : Path) : Except PathFault Disk :=
  match d.find p with
  | .ok (.file _) => .ok d
  | .ok (.folder _) => .error .isDirectory
  | .error .missing => .ok (d.write p {})
  | .error fault => .error fault

/-- Makes sure that a file can be added to, with the folders above it.  The second part of the
result is the path of the file from the root, without detours. -/
def openFile (d : Disk) (p : Path) : Except BadPath (Disk × Path) := do
  let d ← d.ensureFolders p.anchor p.parent.parts.reverse
  let direct : Path := ⟨p.anchor, settled p.parts⟩
  let d ← (d.touch direct).mapError (⟨direct, ·⟩)
  return (d, ⟨"/", direct.parts⟩)

end Disk

end ScopeMetrics
