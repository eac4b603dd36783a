/-
# Waitset.Log.FileTarget -- where the path of a log file leads

A log file is opened for appending with every record, and created if it is not there.  A path that
leads to no file gives the same error with every record.  `FileTarget.ofPath` walks along a path:
every folder on it has to be there, and its last name must not be a folder.  The folder in which the
program runs is taken to have no folders in it.

What is assumed of the operating system is that a text is appended as a whole or not at all.
-/
import Waitset.Error

namespace Waitset.Log

/-- What the path of a log file leads to. -/
inductive FileTarget where
  /-- A plain file, with its text once it exists. -/
  | plain (text : Option String)
  /-- A device that takes every text and keeps none. -/
  | void
  /-- Nothing that a text can be appended to, for this reason.  Not even a part of a text gets there. -/
  | refusing (e : IoError)
  deriving DecidableEq, Repr

namespace FileTarget

/-- A file in a folder that does not exist. -/
def missingDirectory : FileTarget := refusing (.os 2)

/-- A folder. -/
def directory : FileTarget := refusing (.os 21)

/-- Opens the file for appending, which creates it, and adds a text.  By assumption on the operating
system a call that fails has added nothing; on a disk that fills up while the text is written, a part of
it can be left. -/
def append (target : FileTarget) (text : String) : FileTarget × Except Error Unit :=
  match target with
  | plain old => (plain (some (old.getD "" ++ text)), .ok ())
  | void => (void, .ok ())
  | refusing e => (refusing e, .error (.io e))

/-- The text of the file, if there is one. -/
def text? : FileTarget → Option String
  | plain text => text
  | void => none
  | refusing _ => none

/-! ## Walking along a path -/

/-- The folders that every system has, as the names that lead to them from the root. -/
def systemFolders : List (List String) :=
  [[], ["bin"], ["dev"], ["etc"], ["home"], ["lib"], ["mnt"], ["opt"], ["proc"], ["root"], ["run"],
    ["sbin"], ["srv"], ["sys"], ["tmp"], ["usr"], ["usr", "bin"], ["usr", "lib"],
    ["usr", "local"], ["usr", "share"], ["var"], ["var", "lib"], ["var", "log"], ["var", "tmp"]]

/-- The devices that a text can be written to, or that refuse it for lack of room. -/
def devices : List (List String × FileTarget) :=
  [(["dev", "null"], void), (["dev", "zero"], void), (["dev", "full"], refusing (.os 28))]

/-- The device that names from the root lead to. -/
def device? (names : List String) : Option FileTarget :=
  (devices.find? fun entry => entry.1 == names).map (·.2)

/-- The folder that a walk has come to. -/
inductive Folder where
  /-- The folder to which these names lead from the root. -/
  | system (names : List String)
  /-- The folder in which the program runs. -/
  | working
  deriving DecidableEq, Repr

/-- The bytes that one name may have. -/
def nameLimit : Nat := 255

/-- A path has fewer bytes. -/
def pathLimit : Nat := 4096

/-- A name, or a path, has too many bytes. -/
def nameTooLong : IoError := .os 36

/-- One step of the walk, into the folder of a name. -/
def Folder.enter (folder : Folder) (name : String) : Except IoError Folder :=
  if name = "" ∨ name = "." then .ok folder
  else if nameLimit < name.utf8ByteSize then .error nameTooLong
  else
    match folder with
    | system names =>
      if name = ".." then .ok (system names.dropLast)
      else if systemFolders.contains (names ++ [name]) then .ok (system (names ++ [name]))
      else if (device? (names ++ [name])).isSome then .error (.os 20)
      else .error (.os 2)
    | working => if name = ".." then .ok working else .error (.os 2)

/-- What the last name of a path leads to. -/
def Folder.target (folder : Folder) (name : String) : FileTarget :=
  if name = "." ∨ name = ".." then directory
  else if nameLimit < name.utf8ByteSize then refusing nameTooLong
  else
    match folder with
    | system names =>
      if systemFolders.contains (names ++ [name]) then directory
      else (device? (names ++ [name])).getD (plain none)
    | working => plain none

/-- Walks along the names of a path, which are given with the last one first.  A path that ends in a
slash leads to a folder or nowhere. -/
def walk (start : Folder) (names : List String) : FileTarget :=
  match names.dropWhile (· == "") with
  | [] => directory
  | last :: others =>
    match others.reverse.foldlM Folder.enter start with
    | .error e => refusing e
    | .ok folder => if names.head? = some "" then directory else folder.target last

/-- What a path leads to. -/
def ofPath (path : String) : FileTarget :=
  if path.toList.contains '\x00' then
    refusing (.custom .invalidInput "file name contained an unexpected NUL byte")
  else if path = "" then missingDirectory
  else if pathLimit ≤ path.utf8ByteSize then refusing nameTooLong
  else
    walk (if path.toList.head? = some '/' then .system [] else .working) (path.splitOn "/").reverse

end FileTarget

end Waitset.Log
