import Isolation.Shell.Program
/-!
The command line, on real files.
-/

namespace Isolation

def FileFault.ofError : IO.Error → FileFault
  | .noFileOrDirectory .. => .missing
  | .inappropriateType .. => .isDirectory
  | reason => .other (toString reason)

instance : Files IO where
  isPresent path := do
    try
      let _ ← IO.FS.readBinFile path
      return true
    catch reason => return FileFault.ofError reason != .missing
  read path := do
    try return .ok (← IO.FS.readBinFile path)
    catch reason => return .error (FileFault.ofError reason)
  write path content := do
    try return .ok (← IO.FS.writeBinFile path content)
    catch reason => return .error (FileFault.ofError reason)

/-- Reads a stream to its end. -/
partial def readAll (stream : IO.FS.Stream) (read : ByteArray) : IO ByteArray := do
  let more ← stream.read 65536
  if more.isEmpty then return read else readAll stream (read ++ more)

end Isolation

def main (arguments : List String) : IO UInt32 := do
  let input ← Isolation.readAll (← IO.getStdin) ByteArray.empty
  let result ← Isolation.Shell.program arguments input.toList
  IO.print result.output
  IO.eprint result.errors
  return UInt32.ofNat result.code
