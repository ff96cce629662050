import Karst.CommandLine

def Karst.CommandLine.contents? (path : String) : IO (Option ByteArray) :=
  try some <$> IO.FS.readBinFile path catch _ => return none

def main (arguments : List String) : IO UInt32 := do
  let answer ← Karst.CommandLine.answer Karst.CommandLine.contents? IO.monoNanosNow arguments
  answer.log.forM fun line => IO.eprintln line
  answer.output.forM fun line => IO.println line
  return answer.exit.toUInt32
