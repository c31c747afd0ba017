import Stencil.Text.Utf8

/-! # Files

A file tree is a working directory with the files and directories in it.  `read` and `write` follow a
path as a system does: every name but the last must lead to a directory, `.` stays, `..` goes up and
repeated slashes count once.  What is written outside the working directory is kept as well; of what was
there before, only what every system has is known.

`lookup_setFile_self` and `lookup_setFile_of_ne`: a written file holds what was written, and all others
keep what they hold. -/

namespace Stencil

/-- Why a path cannot be opened. -/
inductive Refusal where
  | notFound
  | notDirectory
  | isDirectory
  | nameTooLong
deriving DecidableEq, Repr

/-- The wording of a refusal. -/
def Refusal.message : Refusal → Text
  | notFound => "No such file or directory".toList
  | notDirectory => "Not a directory".toList
  | isDirectory => "Is a directory".toList
  | nameTooLong => "File name too long".toList

/-! ### Places -/

/-- Where the names of a place are counted from. -/
inductive Origin where
  | working
  /-- The directory `levels + 1` levels above the working directory. -/
  | above (levels : Nat)
  | root
deriving DecidableEq, Repr

/-- The directory above; the root has none but itself. -/
def Origin.up : Origin → Origin
  | working => above 0
  | above levels => above (levels + 1)
  | root => root

/-- A place that a path may lead to, by the names from a directory down to it. -/
structure Place where
  origin : Origin := .working
  names : List Text := []
deriving DecidableEq, Repr

namespace Place

/-- The longest name, in bytes. -/
def nameCap : Nat := 255

/-- The directory that a place lies in. -/
def parent (p : Place) : Place :=
  if p.names.isEmpty then ⟨p.origin.up, []⟩ else ⟨p.origin, p.names.dropLast⟩

/-- Whether a name only refers to the directory that it stands in or to the one above. -/
def isDots (name : Text) : Bool := name == ['.'] || name == ['.', '.']

/-- The place that a name in a directory stands for. -/
def child (p : Place) (name : Text) : Except Refusal Place :=
  if name = ['.'] then .ok p
  else if name = ['.', '.'] then .ok p.parent
  else if nameCap < (Utf8.encode name).length then .error .nameTooLong
  else .ok ⟨p.origin, p.names ++ [name]⟩

/-- Whether a place is another one or lies above it. -/
def contains (p q : Place) : Bool := p.origin == q.origin && p.names.isPrefixOf q.names

/-- The directories right below the root that every system has. -/
def systemDirectories : List Place :=
  ["bin", "boot", "dev", "etc", "home", "lib", "media", "mnt", "opt", "proc", "root", "run", "sbin",
    "srv", "sys", "tmp", "usr", "var"].map fun name => ⟨.root, [name.toList]⟩

/-- The file of every system that is always empty. -/
def nullFile : Place := ⟨.root, ["dev".toList, "null".toList]⟩

end Place

/-! ### Paths -/

/-- The length in bytes of a path that is too long. -/
def pathCap : Nat := 4096

/-- The names in a path. -/
def namesOf (path : Text) : List Text :=
  (Text.splitOn '/' path).filter fun name => !name.isEmpty

/-- The directory that a path starts in. -/
def startOf (path : Text) : Place :=
  if path.head? = some '/' then ⟨.root, []⟩ else ⟨.working, []⟩

/-- Whether a path says that it leads to a directory. -/
def endsInSlash (path : Text) : Bool := path.getLast? == some '/'

/-- Why a path leads nowhere on any system. -/
def pathRefusal? (path : Text) : Option Refusal :=
  if path.isEmpty then some .notFound
  else if pathCap ≤ (Utf8.encode path).length then some .nameTooLong
  else none

/-! ### File trees -/

/-- Files with their bytes, and the directories that were made. -/
structure FileTree where
  files : List (Place × List UInt8) := []
  directories : List Place := []
deriving DecidableEq, Repr

namespace FileTree

/-- What is found at a place. -/
inductive Node where
  | file (bytes : List UInt8)
  | directory
deriving DecidableEq, Repr

/-- Whether a place is a directory: one that names are counted from, one that is known, or one that
something lies in. -/
def isDirectory (t : FileTree) (p : Place) : Bool :=
  p.names.isEmpty || Place.systemDirectories.contains p || t.directories.any p.contains
    || t.files.any fun f => p.contains f.1 && p != f.1

/-- What is found at a place. -/
def node? (t : FileTree) (p : Place) : Option Node :=
  match t.files.lookup p with
  | some bytes => some (.file bytes)
  | none =>
    if t.isDirectory p then some .directory
    else if p = Place.nullFile then some (.file [])
    else none

/-- The directory at a place. -/
def enter (t : FileTree) (p : Place) : Except Refusal Place :=
  match t.node? p with
  | none => .error .notFound
  | some (.file _) => .error .notDirectory
  | some .directory => .ok p

/-- The place that names lead to, one after the other. -/
def walk (t : FileTree) (p : Place) (names : List Text) : Except Refusal Place :=
  names.foldlM (fun p name => do (← t.enter p).child name) p

/-! ### Reading and writing -/

/-- Reads the file that a path leads to. -/
def read (t : FileTree) (path : Text) : Except Refusal (List UInt8) :=
  match pathRefusal? path with
  | some refusal => .error refusal
  | none => do
    match t.node? (← t.walk (startOf path) (namesOf path)) with
    | none => .error .notFound
    | some .directory => .error .isDirectory
    | some (.file bytes) => if endsInSlash path then .error .notDirectory else .ok bytes

/-- The place of the file that is written under a path.  The last name is not looked up where it can
only be that of a directory. -/
def target (t : FileTree) (path : Text) : Except Refusal Place :=
  match pathRefusal? path with
  | some refusal => .error refusal
  | none => do
    let directory ← t.enter (← t.walk (startOf path) (namesOf path).dropLast)
    match (namesOf path).getLast? with
    | none => .error .isDirectory
    | some name =>
      if Place.isDots name || endsInSlash path then .error .isDirectory
      else
        let place ← directory.child name
        if t.node? place = some .directory then .error .isDirectory else .ok place

/-- Sets the bytes of a file. -/
def setFile (p : Place) (bytes : List UInt8) :
    List (Place × List UInt8) → List (Place × List UInt8)
  | [] => [(p, bytes)]
  | f :: files => if f.1 = p then (p, bytes) :: files else f :: setFile p bytes files

/-- Writes the file that a path leads to, a new one if there is none. -/
def write (t : FileTree) (path : Text) (bytes : List UInt8) : Except Refusal FileTree :=
  (t.target path).map fun p => { t with files := setFile p bytes t.files }

/-- The files in the working directory that are new or hold other bytes than before, by their
names. -/
def changes (before after : FileTree) : List (List Text × List UInt8) :=
  (after.files.filter fun f => f.1.origin = .working && before.files.lookup f.1 != some f.2).map
    fun f => (f.1.names, f.2)

/-- The tree with these files and directories in the working directory, named by their paths. -/
def ofPaths (files : List (Text × List UInt8)) (directories : List Text) : FileTree :=
  { files := files.map fun f => (⟨.working, namesOf f.1⟩, f.2)
    directories := directories.map fun path => ⟨.working, namesOf path⟩ }

/-! ### What is written -/

theorem lookup_setFile_self (p : Place) (bytes : List UInt8) (files : List (Place × List UInt8)) :
    (setFile p bytes files).lookup p = some bytes := by
  induction files with
  | nil => simp [setFile]
  | cons f files ih =>
    unfold setFile
    split
    · simp
    · rename_i h
      rw [List.lookup_cons, ih, beq_eq_false_iff_ne.mpr (Ne.symm h)]

theorem lookup_setFile_of_ne {p q : Place} (h : q ≠ p) (bytes : List UInt8)
    (files : List (Place × List UInt8)) :
    (setFile p bytes files).lookup q = files.lookup q := by
  induction files with
  | nil => simp [setFile, h]
  | cons f files ih =>
    unfold setFile
    split
    · rename_i hk
      rw [List.lookup_cons, List.lookup_cons, hk, beq_eq_false_iff_ne.mpr h]
    · rw [List.lookup_cons, List.lookup_cons, ih]

end FileTree
end Stencil
