import TokenTape.Table

/-!
# Workspaces

The files below a working directory, as data. A path is followed from the working directory, one
component after the other. What a directory above it holds is unknown, and taken to be nothing.
-/

namespace TokenTape.CommandLine

/-! ## Paths -/

/-- The parts of a row of code points between those that are equal to `mark`. -/
def splitAll (mark : CodePoint) : List CodePoint → List (List CodePoint)
  | [] => [[]]
  | point :: rest =>
    match splitAll mark rest with
    | part :: parts => if point = mark then [] :: part :: parts else (point :: part) :: parts
    | [] => []

def components (path : Text) : List Text :=
  ((splitAll (.char '/') path.points).map Text.mk).filter (· ≠ "")

/-- What a path begins with. Exactly two slashes stay two, and more are one. -/
def root (path : Text) : Text :=
  match path.points.takeWhile (· = .char '/') with
  | [] => ""
  | [_, _] => "//"
  | _ => "/"

/-- A path without empty components and single dots. -/
def normalizePath (path : Text) : Text :=
  let text := root path ++ Text.intercalate "/" ((components path).filter (· ≠ "."))
  if text = "" then "." else text

/-- The components that are followed to write to a path. A slash at the end asks for a directory,
which is never written to, so the component before it is not looked up: the directory around it
stands in for it. -/
def componentsForWriting (path : Text) : List Text :=
  if path.points.getLast? = some (.char '/') then (components path).dropLast ++ [Text.ofString "."]
  else components path

/-- The bytes that a code point takes in a path. -/
def byteCount : CodePoint → Nat
  | .char c => c.utf8Size
  | .surrogate _ => 1

def byteLength (text : Text) : Nat :=
  text.points.foldl (fun length point => length + byteCount point) 0

/-! ## Faults -/

inductive FileFault where
  | notFound
  | notDirectory
  | isDirectory
  | nameTooLong
  /-- A path holds the character that ends one. -/
  | embeddedNull
  /-- A path holds a surrogate that stands for no byte. -/
  | noBytes (fault : EncodeFault)
deriving DecidableEq

structure FileError where
  fault : FileFault
  path : Text
deriving DecidableEq

def FileError.message (error : FileError) : String :=
  match error.fault with
  | .notFound => numbered 2 "No such file or directory"
  | .notDirectory => numbered 20 "Not a directory"
  | .isDirectory => numbered 21 "Is a directory"
  | .nameTooLong => numbered 36 "File name too long"
  | .embeddedNull => "embedded null byte"
  | .noBytes fault => fault.message
where
  numbered (code : Nat) (text : String) : String :=
    "[Errno " ++ toString code ++ "] " ++ text ++ ": " ++ Text.quoted error.path

/-! ## Files -/

/-- Files by their normalized paths. A directory is there if a file is in it. -/
structure Workspace where
  files : Table (List UInt8)

/-- What a path leads to. -/
inductive Place where
  | file (name : Text) (bytes : List UInt8)
  | directory
  /-- Nothing yet, in a directory that is there. The name is `none` above the workspace. -/
  | vacant (name : Option Text)

namespace Workspace

def isDirectory (workspace : Workspace) (name : Text) : Bool :=
  workspace.files.names.any fun file => (name ++ "/").points.isPrefixOf file.points

/-- Looks up a name in a directory, which is `none` above the workspace. -/
def lookup (workspace : Workspace) (directory : Option (List Text)) (component : Text) :
    Except FileFault Place :=
  if 255 < byteLength component then .error .nameTooLong
  else
    match directory with
    | none => .ok (.vacant none)
    | some above =>
      let name := Text.intercalate "/" (component :: above).reverse
      if workspace.isDirectory name then .ok .directory
      else
        match workspace.files.get? name with
        | some bytes => .ok (.file name bytes)
        | none => .ok (.vacant (some name))

/-- Follows components from a directory on. Only a directory leads any further, be it to itself. -/
def follow (workspace : Workspace) (directory : Option (List Text)) :
    List Text → Except FileFault Place
  | [] => .ok .directory
  | component :: rest =>
    if component = "." then follow workspace directory rest
    else if component = ".." then
      match directory with
      | some (_ :: above) => follow workspace (some above) rest
      | _ => follow workspace none rest
    else
      match workspace.lookup directory component, rest with
      | .ok .directory, rest => follow workspace (directory.map (component :: ·)) rest
      | .ok (.file ..), _ :: _ => .error .notDirectory
      | .ok (.vacant _), _ :: _ => .error .notFound
      | found, [] => found
      | .error fault, _ => .error fault

/-- Where components lead that were taken from a path. -/
def locate (workspace : Workspace) (path : Text) (components : List Text) :
    Except FileFault Place :=
  match Outlet.utf8Bytes.refusal? path with
  | some fault => .error (.noBytes fault)
  | none =>
    if path.points.contains (.char '\x00') then .error .embeddedNull
    else if 4095 < byteLength path then .error .nameTooLong
    else if path = "" ∨ root path ≠ "" then .error .notFound
    else workspace.follow (some []) components

/-- The name of the file that opening a path for writing writes to; `none` if that is above the
workspace. -/
def openForWriting (workspace : Workspace) (path : Text) : Except FileError (Option Text) :=
  match workspace.locate path (componentsForWriting path) with
  | .error fault => .error ⟨fault, path⟩
  | .ok .directory => .error ⟨.isDirectory, path⟩
  | .ok (.file name _) => .ok (some name)
  | .ok (.vacant name) => .ok name

end Workspace

end TokenTape.CommandLine
