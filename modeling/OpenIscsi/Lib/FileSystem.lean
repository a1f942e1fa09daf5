import Mathlib.Data.List.Basic

/-! # Paths and file calls

Absolute paths as byte strings, and the calls that a program
makes on files. -/

namespace FileSystem

abbrev Name := List UInt8

abbrev Path := List UInt8

def slash : UInt8 := 47

/-! ### Calls -/

inductive Kind where
  | dir | file | other
  deriving DecidableEq, Repr

/-- How `symlink` ends; a name that is taken has its own error. -/
inductive LinkResult where
  | made | taken | failed
  deriving DecidableEq, Repr

/-- Why `scandir` fails. -/
inductive ScanError where
  | noent | nomem | other
  deriving DecidableEq, Repr

/-- The file calls; `create` opens a file for writing, which empties it, and `print` puts a text
in it; `read` reads a file; `entries` and `scandir` read a directory (without `.` and `..`). -/
inductive Call where
  | stat (p : Path)
  | mkdir (p : Path)
  | unlink (p : Path)
  | rmdir (p : Path)
  | create (p : Path)
  | print (p : Path) (text : List UInt8)
  | read (p : Path)
  | symlink (target p : Path)
  | entries (p : Path)
  | scandir (p : Path)
  deriving DecidableEq, Repr

def Call.Answer : Call → Type
  | .stat _ => Option Kind
  | .mkdir _ | .unlink _ | .rmdir _ | .create _ => Bool
  | .print _ _ => Unit
  | .read _ => Option (List UInt8)
  | .symlink _ _ => LinkResult
  | .entries _ => Option (List Name)
  | .scandir _ => Except ScanError (List Name)

def Call.fails : (c : Call) → c.Answer → Bool
  | .stat _, r => Option.isNone r
  | .mkdir _, r | .unlink _, r | .rmdir _, r | .create _, r => not r
  | .print _ _, _ => false
  | .read _, r => Option.isNone r
  | .symlink _ _, .failed => true
  | .symlink _ _, .made | .symlink _ _, .taken => false
  | .entries _, r => Option.isNone r
  | .scandir _, .ok _ => false
  | .scandir _, .error _ => true

end FileSystem
