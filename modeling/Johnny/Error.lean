import Johnny.Disk.Basic
import Johnny.Program
import Johnny.Ram

namespace Johnny

/-- Everything that can end an operation without a result. -/
inductive Error where
  | encode (error : EncodeError)
  | digits (limit : DigitLimit)
  | program (error : ProgramError)
  | noImage
  | file (error : FileError)
  | decode (error : Text.DecodeError)
  | assembly (errors : List String)
  | load (error : Ram.LoadError)
  /-- The named part of an assembler is asked for where there is no assembler. -/
  | noAssembler (part : String)
  deriving DecidableEq

def EncodeError.message : EncodeError → String
  | fault f => f.message
  | digits limit => limit.message

def ProgramError.message : ProgramError → String
  | tooLong count =>
    "Program has " ++ decimal count ++ " instructions, memory holds " ++ decimal memorySize
  | emptyInstruction => "tuple index out of range"
  | encode e => e.message

def Error.message : Error → String
  | encode e => e.message
  | digits limit => limit.message
  | program e => e.message
  | noImage => "No assembled image to write"
  | file e => e.message
  | decode e => e.message
  | assembly errors => "Assembly failed:\n" ++ "\n".intercalate errors
  | load e => e.message
  | noAssembler part => "'NoneType' object has no attribute '" ++ part ++ "'"

end Johnny
