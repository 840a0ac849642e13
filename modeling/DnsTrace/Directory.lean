import DnsTrace.Octets

/-!
# Directories

A directory held in memory, for running a program on files that are given as data. A path
names a file by its components; empty components and single dots name nothing on the way,
but a path that ends in one of them asks for a directory, which cannot be read.
-/

namespace DnsTrace

/-- File names with the content of each file. -/
abbrev Directory := List (String × Octets)

namespace Directory

/-- The content of the file at a path, if it can be read. -/
def read? (directory : Directory) (path : String) : Option Octets :=
  let components := path.splitOn "/"
  if path.startsWith "/" ∨ components.getLast? = some "" ∨ components.getLast? = some "." then
    none
  else
    directory.lookup ("/".intercalate (components.filter fun part => part ≠ "" ∧ part ≠ "."))

end Directory

end DnsTrace
