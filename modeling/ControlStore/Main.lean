import ControlStore.Run

/-!
# `ControlStore.Main`: the command

The command runs the program on the files and streams of the operating system. The variable
`RUST_LOG` names the verbosity of the events on standard error, and without it no event is shown.
-/

set_option autoImplicit false

namespace ControlStore

/-- The file fault that an error of the operating system stands for. Any other error is raised
again. -/
def fileFaultOf : IO.Error → IO FileFault
  | .noFileOrDirectory .. => return .notFound
  | .inappropriateType _ 20 _ => return .notDirectory
  | .inappropriateType _ 21 _ => return .isDirectory
  | error => throw error

/-- All bytes that a reading action delivers, until it delivers none or fails. -/
partial def drain (read : IO ByteArray) (taken : ByteArray) : IO Source := do
  match ← read.toBaseIO with
  | .error error =>
    let reason ← try pure (← fileFaultOf error).numbered catch _ => pure (toString error)
    return { bytes := taken.toList, failure := some reason }
  | .ok bytes =>
    if bytes.isEmpty then return { bytes := taken.toList } else drain read (taken ++ bytes)

/-- Opens a file and gives an action on it. -/
def withFile {α : Type} (path : String) (mode : IO.FS.Mode) (action : IO.FS.Handle → IO α) :
    IO (Except FileFault α) := do
  match ← (IO.FS.Handle.mk path mode).toBaseIO with
  | .error error => return .error (← fileFaultOf error)
  | .ok handle => return .ok (← action handle)

/-- The number of bytes that are read at a time. -/
def chunk : USize := 8192

/-- The host of the operating system, which shows events up to a verbosity. -/
def systemHost (verbosity : Verbosity) : Host IO where
  log events := do
    for event in events do
      if verbosity.admits event.severity then
        IO.eprintln s!"[{event.severity.label}] {event.message}"
  standardInput := do
    let stdin ← IO.getStdin
    drain (stdin.read chunk) .empty
  openFile path := withFile path .read fun handle => drain (handle.read chunk) .empty
  createFile path content := withFile path .write fun handle => do
    handle.write content.toByteArray
    handle.flush
  print bytes := do
    let stdout ← IO.getStdout
    stdout.write bytes.toByteArray
    stdout.flush

end ControlStore

/-- Runs the program with the words of the command line. -/
def main (words : List String) : IO UInt32 := do
  let name := (← IO.getEnv "RUST_LOG").getD "off"
  let verbosity := (ControlStore.Verbosity.ofName? name).getD none
  let ending ← (ControlStore.systemHost verbosity).run words
  IO.eprint ending.diagnosis
  return ending.exitCode
