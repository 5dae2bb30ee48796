import AccessList.CommandLine
import Std.Time.Zoned

/-!
# The program

Here the generator meets the files and the clock of the system.
-/

namespace AccessList

def errorNumber (n : UInt32) : Nat := min n.toNat (0 - n).toNat

def IoError.ofSystem (e : IO.Error) : IoError :=
  match e with
  | .noFileOrDirectory .. => .notFound
  | .inappropriateType _ n _ =>
    match errorNumber n with
    | 20 => .notDirectory
    | 21 => .isDirectory
    | _ => .other (toString e)
  | .invalidArgument _ n _ => if errorNumber n = 36 then .nameTooLong else .other (toString e)
  | e => .other (toString e)

def withPath {α : Type} (path : String) (act : IO (Except IoError α)) : IO (Except IoError α) := do
  if Path.hasEnd path then pure (.error .endInName)
  else
    try act
    catch e => pure (.error (IoError.ofSystem e))

def systemFiles : FileAccess IO where
  read path := withPath path do
    let bytes ← IO.FS.readBinFile path
    pure ((String.fromUTF8? bytes).elim (.error .notUtf8) .ok)
  write path text := withPath path do
    IO.FS.writeFile path text
    pure (.ok ())
  print := IO.print

def localDate : IO Date := do
  let day ← try
      let d ← Std.Time.PlainDate.now
      pure (Date.dayNumber d.year.toInt d.month.toNat d.day.toNat)
    catch _ =>
      let now ← Std.Time.Timestamp.now
      pure (Date.dayNumber 1970 1 1 + now.toDaysSinceUnixEpoch.val)
  pure ((Date.ofDay? day).getD .greatest)

end AccessList

def main (args : List String) : IO UInt32 := do
  let report ← AccessList.runCommand AccessList.systemFiles (← AccessList.localDate) args
  if let some text := report.failure then
    IO.eprintln ("ERROR aclgen-cisco: generation failed error=" ++ text)
  pure report.exit.toUInt32
