namespace DualCall

/-- Why a path leads to no content. -/
inductive FileError where
  | nullInName
  | missing
  | notDirectory
  | isDirectory
  | nameTooLong
deriving DecidableEq, Repr

namespace FileError

/-- The words of the system for an error. -/
def reason : FileError → String
  | .nullInName => "file name contained an unexpected NUL byte"
  | .missing => "No such file or directory"
  | .notDirectory => "Not a directory"
  | .isDirectory => "Is a directory"
  | .nameTooLong => "File name too long"

/-- The number of the system for an error. A null character is found before the system is asked. -/
def code? : FileError → Option Nat
  | .nullInName => none
  | .missing => some 2
  | .notDirectory => some 20
  | .isDirectory => some 21
  | .nameTooLong => some 36

def message (e : FileError) : String :=
  match e.code? with
  | none => e.reason
  | some code => e.reason ++ " (os error " ++ toString code ++ ")"

end FileError

/-- A file with its content, or a directory with what stands in it by name. -/
inductive FileTree where
  | file (content : String)
  | directory (entries : List (String × FileTree))

namespace FileTree

/-- The greatest size of a name, in bytes. -/
def nameLimit : Nat := 255

/-- The greatest size of a path, in bytes. -/
def pathLimit : Nat := 4095

/-- Follow the parts of a path from a place. A part that is missing is noticed before what stands
    behind it. The directories around the place are given from the inside out; one that is not known
    is empty. -/
def follow : FileTree → List FileTree → List String → Except FileError FileTree
  | place, _, [] => .ok place
  | .file _, _, _ :: _ => .error .notDirectory
  | .directory entries, outer, part :: rest =>
    if part = "" ∨ part = "." then follow (.directory entries) outer rest
    else if part = ".." then follow (outer.headD (.directory entries)) outer.tail rest
    else if nameLimit < part.utf8ByteSize then .error .nameTooLong
    else
      match entries.lookup part with
      | some place => follow place (.directory entries :: outer) rest
      | none => .error .missing

/-- What a path leads to, from the root of all directories. A path that does not begin there begins
    in an empty directory. -/
def find (root : FileTree) (path : String) : Except FileError FileTree :=
  if path = "" then .error .missing
  else if path.toList.contains '\x00' then .error .nullInName
  else if pathLimit < path.utf8ByteSize then .error .nameTooLong
  else if path.toList.head? = some '/' then follow root [] (path.splitOn "/")
  else follow (.directory []) [] (path.splitOn "/")

/-- The content of the file at a path. -/
def read (root : FileTree) (path : String) : Except FileError String :=
  match root.find path with
  | .ok (.file content) => .ok content
  | .ok (.directory _) => .error .isDirectory
  | .error e => .error e

/-- The content of the file at a path, or why there is none in the words of the system. -/
def source (root : FileTree) (path : String) : Except String String :=
  (root.read path).mapError FileError.message

/-- An empty directory for each name. -/
def directories (names : List String) : List (String × FileTree) :=
  names.map fun name => (name, .directory [])

/-- The directories that every system has, with the null device and the list of users. -/
def standard : FileTree :=
  .directory (
    [("dev", .directory (("null", .file "") :: directories ["shm"])),
      ("etc", .directory [("passwd",
        .file ("root:x:0:0:root:/root:/bin/bash\n" ++
          "nobody:x:65534:65534:nobody:/nonexistent:/usr/sbin/nologin\n"))]),
      ("usr", .directory (directories ["bin", "include", "lib", "local", "sbin", "share"])),
      ("var", .directory (directories ["cache", "lib", "log", "tmp"]))] ++
    directories ["bin", "boot", "home", "lib", "lib64", "media", "mnt", "opt", "proc", "root",
      "run", "sbin", "srv", "sys", "tmp"])

end FileTree

end DualCall
