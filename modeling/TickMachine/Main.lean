import TickMachine.CommandLine.Session

/-! # The program

The command line on the files of the system. A run is tried with more and more steps until it
ends. -/

namespace TickMachine.CommandLine

/-- The reason for an error that the system gives a code and a text. -/
def FileError.ofCode (code : UInt32) (detail : String) : FileError :=
  if code = 2 then .notFound
  else if code = 20 then .notDirectory
  else if code = 21 then .isDirectory
  else if code = 36 then .nameTooLong
  else .other s!"{detail} (os error {code})"

/-- The reason for an error of the system. -/
def FileError.ofSystem : IO.Error → FileError
  | .noFileOrDirectory _ code detail => .ofCode code detail
  | .inappropriateType _ code detail => .ofCode code detail
  | .invalidArgument _ code detail => .ofCode code detail
  | .permissionDenied _ code detail => .ofCode code detail
  | .resourceExhausted _ code detail => .ofCode code detail
  | error => .other (toString error)

/-- Reading and writing the files of the system. -/
def systemFiles : FileAccess IO where
  read path := do
    try
      let handle ← IO.FS.Handle.mk path .read
      return .ok (← handle.readBinToEnd)
    catch error =>
      return .error (.ofSystem error)
  write path content := do
    try
      IO.FS.writeBinFile path content
      return .ok ()
    catch error =>
      return .error (.ofSystem error)

/-- Performs the arguments with as many steps as it takes. -/
partial def invokeFully (fuel : Nat) (arguments : List String) : IO Conclusion := do
  match ← invoke systemFiles fuel arguments .plain with
  | some conclusion => return conclusion
  | none => invokeFully (2 * fuel) arguments

end TickMachine.CommandLine

open TickMachine.CommandLine in
/-- Performs the arguments of the command line. -/
def main (arguments : List String) : IO UInt32 := do
  let conclusion ← invokeFully 65536 arguments
  (← IO.getStderr).putStr conclusion.diagnostics
  (← IO.getStdout).putStr conclusion.output
  return UInt32.ofNat conclusion.exit
