import BuildPipeline.Files.Basic

/-! A file system as a value: what is at each path, and the mishaps that are to
befall the coming requests. -/

namespace BuildPipeline

inductive Entry
  | file (text : Text)
  | directory
deriving DecidableEq

def Entry.kind : Entry → EntryKind
  | .file _ => .file
  | .directory => .directory

/-- Entries below the root, which is always a directory. -/
structure Store where
  entries : List (Path × Entry)

namespace Store

def empty : Store := ⟨[]⟩

def get? (store : Store) (path : Path) : Option Entry :=
  if path = .root then some .directory else store.entries.lookup path

def put (store : Store) (path : Path) (entry : Entry) : Store :=
  ⟨(path, entry) :: store.entries.filter (·.1 ≠ path)⟩

def erase (store : Store) (path : Path) : Store :=
  ⟨store.entries.filter (·.1 ≠ path)⟩

/-- Bytes that a single name may take. -/
def nameLimit : Nat := 255

def nameFault? (name : Text) : Option FileFault :=
  if name.any (· = 0) then some .invalidName
  else if nameLimit < name.utf8.length then some .nameTooLong
  else none

def directoryFault? (store : Store) (path : Path) : Option FileFault :=
  match store.get? path with
  | none => some .missing
  | some (.file _) => some .notDirectory
  | some .directory => none

/-- Why the place of a path cannot be reached: all above it must be directories. -/
def fault? (store : Store) (path : Path) : Option FileFault :=
  (path.names.findSome? nameFault?).or (path.ancestors.findSome? store.directoryFault?)

def reach (store : Store) (path : Path) : Except FileFault (Option Entry) :=
  match store.fault? path with
  | some fault => .error fault
  | none => .ok (store.get? path)

def kind? (store : Store) (path : Path) : Option EntryKind :=
  match store.reach path with
  | .ok (some entry) => some entry.kind
  | _ => none

def readText (store : Store) (path : Path) : Except FileFault Text :=
  match store.reach path with
  | .error fault => .error fault
  | .ok none => .error .missing
  | .ok (some .directory) => .error .isDirectory
  | .ok (some (.file text)) => .ok text

/-- Makes one directory unless it is there. -/
def enter (store : Store) (path : Path) : Except FileFault Store :=
  match store.reach path with
  | .error fault => .error fault
  | .ok none => .ok (store.put path .directory)
  | .ok (some .directory) => .ok store
  | .ok (some (.file _)) => .error .notDirectory

/-- Directories from the root down, as far as they can be made. -/
def makeDirectories (store : Store) : List Path → Store × Except FileFault Unit
  | [] => (store, .ok ())
  | path :: rest =>
    match store.enter path with
    | .error fault => (store, .error fault)
    | .ok store => store.makeDirectories rest

def makeDirectory (store : Store) (path : Path) : Store × Except FileFault Unit :=
  store.makeDirectories (path.ancestors ++ [path])

def writeText (store : Store) (path : Path) (text : Text) : Except FileFault Store :=
  match store.reach path with
  | .error fault => .error fault
  | .ok (some .directory) => .error .isDirectory
  | .ok _ => .ok (store.put path (.file text))

def rename (store : Store) (source target : Path) : Except FileFault Store :=
  match store.readText source with
  | .error fault => .error fault
  | .ok text => (store.erase source).writeText target text

def remove (store : Store) (path : Path) : Except FileFault Store :=
  match store.reach path with
  | .error .missing => .ok store
  | .error fault => .error fault
  | .ok (some .directory) => .error .isDirectory
  | .ok _ => .ok (store.erase path)

end Store

/-- A fault from outside. A write may have stored a part of its text. -/
structure Mishap where
  fault : FileFault
  written : Option Text := none

/-- The mishaps of the coming requests, in order; later requests have none. -/
structure Disk where
  store : Store
  mishaps : List (Option Mishap) := []

namespace Disk

/-- Runs a request unless a mishap prevents it. -/
def request (run : Store → Store × Except FileFault α) (fail : Store → Mishap → Store) (disk : Disk) :
    Except FileFault α × Disk :=
  match disk.mishaps with
  | some mishap :: rest => (.error mishap.fault, ⟨fail disk.store mishap, rest⟩)
  | _ =>
    let (store, outcome) := run disk.store
    (outcome, ⟨store, disk.mishaps.drop 1⟩)

/-- A change of the store that leaves it alone when it fails. -/
def change (run : Store → Except FileFault Store) (store : Store) : Store × Except FileFault Unit :=
  match run store with
  | .ok changed => (changed, .ok ())
  | .error fault => (store, .error fault)

/-- What a write has stored when it is cut short. -/
def writePart (path : Path) (store : Store) (mishap : Mishap) : Store :=
  match mishap.written.map (store.writeText path) with
  | some (.ok changed) => changed
  | _ => store

def untouched (store : Store) (_ : Mishap) : Store := store

/-- Names and texts are kept as characters. -/
instance : FileSystem (StateM Disk) where
  kind? path := fun disk => (disk.store.kind? path.stored, disk)
  readText path := request (fun store => (store, store.readText path.stored)) untouched
  makeDirectory path := request (·.makeDirectory path.stored) untouched
  writeText path text := request (change (·.writeText path.stored text.stored)) (writePart path.stored)
  rename source target := request (change (·.rename source.stored target.stored)) untouched
  remove path := request (change (·.remove path.stored)) untouched

end Disk

end BuildPipeline
