/-!
# Words of a shell

A word that holds only letters, digits and a few harmless signs stands as it is.  Every other word
is put between single quotes, where an apostrophe closes the quotes, is escaped, and opens them
again.
-/

namespace Converge.Shell

/-- Whether a character stands for itself outside quotes. -/
def isPlain (c : Char) : Bool :=
  c.isAlphanum || ['-', '_', '.', '/', ':', '=', '@', ',', '+', '%'].contains c

def quoteChar (c : Char) : List Char :=
  if c = '\'' then ['\'', '\\', '\'', '\''] else [c]

def quoteChars (cs : List Char) : List Char :=
  if !cs.isEmpty && cs.all isPlain then cs
  else '\'' :: cs.flatMap quoteChar ++ ['\'']

/-- A word as a shell reads it. -/
def quote (word : String) : String :=
  String.ofList (quoteChars word.toList)

end Converge.Shell
