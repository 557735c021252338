namespace CorridorTrust

inductive FileFault where
  | missing
  | isDirectory
  | notDirectory
  | nameTooLong
  | invalidName
deriving DecidableEq, Repr

def FileFault.text : FileFault → String
  | .missing => "No such file or directory (os error 2)"
  | .isDirectory => "Is a directory (os error 21)"
  | .notDirectory => "Not a directory (os error 20)"
  | .nameTooLong => "File name too long (os error 36)"
  | .invalidName => "file name contained an unexpected NUL byte"

end CorridorTrust
